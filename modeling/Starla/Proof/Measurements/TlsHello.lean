import Starla.Framework.Chunks
import Starla.Framework.Takers
import Starla.Impl.Measurements.TlsHello
import Starla.Proof.Measurements.TlsRoundTrip

/-!
# A server reads the hello

What a server takes a stream for: the payloads of its records are one handshake
message, a ClientHello, with nothing after it and nothing left over in it.

* `readHello` : the hello of a stream.
* `readHello_clientHello` : the hello that is sent has what it was given in it,
  if the name it asks for is not too long for its extensions' length. If it is,
  no server reads a hello.
-/

namespace Starla.Proof.Measurements.Tls

open Starla.Framework Starla.Impl.Measurements.DnsName Starla.Impl.Measurements.Tls

inductive Extension
  /-- Each name after its type. -/
  | serverName (names : List (Nat × List UInt8))
  | signatureAlgorithms (schemes : List Nat)
  | supportedGroups (groups : List Nat)
  | other (type : Nat) (data : List UInt8)
deriving DecidableEq

structure ClientHello where
  version : List UInt8
  random : List UInt8
  sessionId : List UInt8
  ciphers : List Nat
  compression : List UInt8
  extensions : List Extension
deriving DecidableEq

/-! ## What a server reads -/

def namedHost : Taker UInt8 (Nat × List UInt8) := do
  let type ← number 1
  let name ← vector 2
  return (type, name)

def extensionOf : (type : Nat) → (data : List UInt8) → Option Extension
  | 0, data => (whole (listOf 2 namedHost) data).map .serverName
  | 10, data => (whole (listOf 2 (number 2)) data).map .supportedGroups
  | 13, data => (whole (listOf 2 (number 2)) data).map .signatureAlgorithms
  | type, data => some (.other type data)

def extension : Taker UInt8 Extension := do
  let type ← number 2
  let data ← vector 2
  found (extensionOf type data)

def helloFields : Taker UInt8 ClientHello := do
  let version ← symbols 2
  let random ← symbols 32
  let sessionId ← vector 1
  let ciphers ← listOf 2 (number 2)
  let compression ← vector 1
  let exts ← vector 2
  let extensions ← found (every extension exts)
  return ⟨version, random, sessionId, ciphers, compression, extensions⟩

def helloMessage : Taker UInt8 ClientHello := do
  demand ((← number 1) = HS_CLIENT_HELLO.toNat)
  let body ← vector 3
  found (whole helloFields body)

/-- A record of a handshake, of as many bytes as it may have. -/
def isHandshake (r : Record) : Bool := r.typ = MSG_HANDSHAKE ∧ 0 < r.payload.length ∧ r.payload.length ≤ 2 ^ 14

/-- The hello of a stream. -/
def readHello (stream : List UInt8) : Option ClientHello :=
  let (rs, rest) := framing.split stream
  if rest.isEmpty && rs.all isHandshake then whole helloMessage (rs.flatMap (·.payload)) else none

/-! ## What is sent -/

/-- The extensions that are sent. -/
def sentExtensions (sni : Option String) : List Extension :=
  (sni.map fun name => Extension.serverName [(0, asBytes name)]).toList ++
    [.signatureAlgorithms (SIG_ALGS.map (·.toNat)), .supportedGroups (GROUPS.map (·.toNat))]

/-- The hello that is sent. -/
def sentHello (sni : Option String) (version : UInt8 × UInt8) (random : Vector UInt8 32) : ClientHello where
  version := [version.1, version.2]
  random := random.toList
  sessionId := []
  ciphers := CIPHERS.map (·.toNat)
  compression := [1, 0]
  extensions := sentExtensions sni

def sniLength (sni : Option String) : Nat := (sni.map (·.utf8ByteSize)).getD 0

/-! ## Numbers and vectors -/

theorem putU16s_eq (vs : List UInt16) : putU16s vs = (vs.map (·.toNat)).flatMap (beBytes 2) := by
  rw [List.flatMap_map]
  rfl

theorem length_putU16s (vs : List UInt16) : (putU16s vs).length = 2 * vs.length := by
  induction vs with
  | nil => rfl
  | cons v vs ih =>
    show (putU16 v.toNat ++ putU16s vs).length = _
    rw [List.length_append, ih, putU16, length_beBytes, List.length_cons]
    omega

theorem putU16s_vectorBytes (vs : List UInt16) :
    putU16 (2 * vs.length) ++ putU16s vs = vectorBytes 2 ((vs.map (·.toNat)).flatMap (beBytes 2)) := by
  rw [vectorBytes, ← putU16s_eq, length_putU16s]
  rfl

theorem takes_putU16s (vs : List UInt16) (h : 2 * vs.length < 65536) :
    Takes (listOf 2 (number 2)) (putU16 (2 * vs.length) ++ putU16s vs) (vs.map (·.toNat)) := by
  rw [putU16s_vectorBytes]
  apply takes_listOf
  · rw [← putU16s_eq, length_putU16s]
    exact h
  · intro n hn
    obtain ⟨v, -, rfl⟩ := List.mem_map.mp hn
    exact ⟨takes_number v.toNat_lt, List.cons_ne_nil _ _⟩

/-! ## Extensions -/

def Extension.bytes : Extension → List UInt8
  | .serverName names =>
    beBytes 2 0 ++ vectorBytes 2 (vectorBytes 2 (names.flatMap fun name => beBytes 1 name.1 ++ vectorBytes 2 name.2))
  | .signatureAlgorithms schemes => beBytes 2 13 ++ vectorBytes 2 (vectorBytes 2 (schemes.flatMap (beBytes 2)))
  | .supportedGroups groups => beBytes 2 10 ++ vectorBytes 2 (vectorBytes 2 (groups.flatMap (beBytes 2)))
  | .other type data => beBytes 2 type ++ vectorBytes 2 data

theorem putU16s_extension (type : Nat) (vs : List UInt16) :
    putU16 type ++ (putU16 (2 + 2 * vs.length) ++ (putU16 (2 * vs.length) ++ putU16s vs)) =
      beBytes 2 type ++ vectorBytes 2 (vectorBytes 2 ((vs.map (·.toNat)).flatMap (beBytes 2))) := by
  have hlength : (putU16 (2 * vs.length) ++ putU16s vs).length = 2 + 2 * vs.length := by
    rw [List.length_append, length_putU16s, putU16, length_beBytes]
  rw [← putU16s_vectorBytes, vectorBytes, hlength]
  rfl

theorem length_name (name : String) : (asBytes name).length = name.utf8ByteSize := by
  simp [asBytes]

theorem bytes_serverName (name : String) :
    putU16 0 ++ (putU16 (2 + 1 + 2 + name.utf8ByteSize) ++ (putU16 (1 + 2 + name.utf8ByteSize) ++
      ([0] ++ (putU16 name.utf8ByteSize ++ asBytes name)))) = (Extension.serverName [(0, asBytes name)]).bytes := by
  have hentry : vectorBytes 2 (beBytes 1 0 ++ vectorBytes 2 (asBytes name) ++ []) =
      putU16 (1 + 2 + name.utf8ByteSize) ++ ([0] ++ (putU16 name.utf8ByteSize ++ asBytes name)) := by
    rw [List.append_nil, vectorBytes, vectorBytes, List.length_append, List.length_append, length_beBytes, length_beBytes,
      length_name, ← Nat.add_assoc]
    rfl
  have hlength : (vectorBytes 2 (beBytes 1 0 ++ vectorBytes 2 (asBytes name) ++ [])).length = 2 + 1 + 2 + name.utf8ByteSize := by
    simp [vectorBytes, length_name]
    omega
  rw [← hentry, ← hlength]
  rfl

theorem extensions_eq (sni : Option String) : extensions sni = (sentExtensions sni).flatMap Extension.bytes := by
  have htail : putU16 13 ++ (putU16 (2 + 2 * SIG_ALGS.length) ++ (putU16 (2 * SIG_ALGS.length) ++ (putU16s SIG_ALGS ++
      (putU16 10 ++ (putU16 (2 + 2 * GROUPS.length) ++ (putU16 (2 * GROUPS.length) ++ putU16s GROUPS)))))) =
        (Extension.signatureAlgorithms (SIG_ALGS.map (·.toNat))).bytes ++
          ((Extension.supportedGroups (GROUPS.map (·.toNat))).bytes ++ []) := by
    rw [putU16s_extension 10, Extension.bytes, ← putU16s_extension 13]
    simp only [List.append_assoc, List.append_nil, Extension.bytes]
  cases sni with
  | none =>
    simp only [extensions, List.nil_append, List.append_assoc]
    exact htail
  | some name =>
    simp only [extensions, List.append_assoc]
    rw [htail]
    have hname := congrArg (· ++ ((Extension.signatureAlgorithms (SIG_ALGS.map (·.toNat))).bytes ++
      ((Extension.supportedGroups (GROUPS.map (·.toNat))).bytes ++ []))) (bytes_serverName name)
    simp only [List.append_assoc] at hname
    exact hname

theorem length_extensions (sni : Option String) :
    (extensions sni).length = match sni with
      | some name => 55 + name.utf8ByteSize
      | none => 46 := by
  cases sni with
  | none =>
    simp only [extensions, List.length_append, length_putU16s, putU16, length_beBytes, List.length_nil]
    rfl
  | some name =>
    simp only [extensions, List.length_append, length_putU16s, putU16, length_beBytes, length_name, SIG_ALGS, GROUPS,
      List.length_cons, List.length_nil]
    omega

theorem takes_extension {type : Nat} {data : List UInt8} {e : Extension} (htype : type < 65536)
    (hdata : data.length < 65536) (h : extensionOf type data = some e) :
    Takes extension (beBytes 2 type ++ vectorBytes 2 data) e := by
  unfold extension
  apply (takes_number htype).bind
  apply (takes_vector 2 _ hdata).bind_last
  rw [h]
  exact takes_found e

/-- Numbers come back of an extension of them. -/
theorem whole_numbers (vs : List UInt16) (h : 2 * vs.length < 65534) :
    whole (listOf 2 (number 2)) (vectorBytes 2 ((vs.map (·.toNat)).flatMap (beBytes 2))) = some (vs.map (·.toNat)) ∧
      (vectorBytes 2 ((vs.map (·.toNat)).flatMap (beBytes 2))).length < 65536 := by
  rw [← putU16s_vectorBytes]
  refine ⟨(takes_putU16s vs (by omega)).whole, ?_⟩
  rw [List.length_append, length_putU16s, putU16, length_beBytes]
  omega

theorem whole_names {name : List UInt8} (h : name.length < 65531) :
    whole (listOf 2 namedHost) (vectorBytes 2 ([(0, name)].flatMap fun n => beBytes 1 n.1 ++ vectorBytes 2 n.2)) =
      some [(0, name)] := by
  refine (takes_listOf ?_ fun n hn => ?_).whole
  · simp [vectorBytes]
    omega
  · obtain rfl := List.mem_singleton.mp hn
    refine ⟨?_, List.cons_ne_nil _ _⟩
    unfold namedHost
    apply (takes_number (n := 0) (by decide)).bind
    apply (takes_vector 2 name (by omega)).bind_last
    exact .pure (0, name)

theorem every_extension {sni : Option String} (h : sniLength sni ≤ 65480) :
    every extension (extensions sni) = some (sentExtensions sni) := by
  have hschemes := whole_numbers SIG_ALGS (by decide)
  have hgroups := whole_numbers GROUPS (by decide)
  have hnumbers : ∀ e ∈ [Extension.signatureAlgorithms (SIG_ALGS.map (·.toNat)),
      .supportedGroups (GROUPS.map (·.toNat))], Takes extension e.bytes e ∧ e.bytes ≠ [] := by
    rw [List.forall_mem_cons, List.forall_mem_singleton]
    refine ⟨⟨takes_extension (by decide) hschemes.2 ?_, List.cons_ne_nil _ _⟩,
      takes_extension (by decide) hgroups.2 ?_, List.cons_ne_nil _ _⟩
    · rw [extensionOf, hschemes.1]
      rfl
    · rw [extensionOf, hgroups.1]
      rfl
  rw [extensions_eq]
  apply every_flatMap
  cases sni with
  | none => exact hnumbers
  | some name =>
    have hname : (asBytes name).length ≤ 65480 := by
      rw [length_name]
      exact h
    have hlist : ∀ e ∈ Extension.serverName [(0, asBytes name)] :: [Extension.signatureAlgorithms (SIG_ALGS.map (·.toNat)),
        .supportedGroups (GROUPS.map (·.toNat))], Takes extension e.bytes e ∧ e.bytes ≠ [] := by
      rw [List.forall_mem_cons]
      refine ⟨⟨takes_extension (by decide) ?_ ?_, List.cons_ne_nil _ _⟩, hnumbers⟩
      · simp [vectorBytes]
        omega
      · rw [extensionOf, whole_names (by omega)]
        rfl
    exact hlist

/-! ## The message -/

theorem helloBody_eq (sni : Option String) (version : UInt8 × UInt8) (random : Vector UInt8 32) :
    helloBody sni version random = [version.1, version.2] ++ (random.toList ++ (vectorBytes 1 [] ++
      ((putU16 (2 * CIPHERS.length) ++ putU16s CIPHERS) ++ (vectorBytes 1 [1, 0] ++ vectorBytes 2 (extensions sni))))) := by
  simp only [helloBody, vectorBytes, List.append_assoc]
  rfl

theorem length_helloBody (sni : Option String) (version : UInt8 × UInt8) (random : Vector UInt8 32) :
    (helloBody sni version random).length = 78 + (extensions sni).length := by
  rw [helloBody_eq]
  simp only [List.length_append, vectorBytes, length_putU16s, putU16, length_beBytes, Vector.length_toList, CIPHERS,
    List.length_cons, List.length_nil]
  omega

/-- As far as its extensions' bytes, a hello is read. -/
theorem whole_helloBody (sni : Option String) (version : UInt8 × UInt8) (random : Vector UInt8 32) :
    whole helloFields (helloBody sni version random) = whole (do
      let exts ← vector 2
      let extensions ← found (every extension exts)
      return (⟨[version.1, version.2], random.toList, [], CIPHERS.map (·.toNat), [1, 0], extensions⟩ : ClientHello))
        (vectorBytes 2 (extensions sni)) := by
  rw [helloBody_eq]
  unfold helloFields
  apply (takes_symbols (n := 2) (s := [version.1, version.2]) rfl).whole_bind.trans
  apply (takes_symbols random.length_toList).whole_bind.trans
  apply (takes_vector 1 [] (by decide)).whole_bind.trans
  apply (takes_putU16s CIPHERS (by decide)).whole_bind.trans
  apply (takes_vector 1 [1, 0] (by decide)).whole_bind.trans
  rfl

theorem whole_helloFields (sni : Option String) (version : UInt8 × UInt8) (random : Vector UInt8 32) :
    whole helloFields (helloBody sni version random) =
      if sniLength sni ≤ 65480 then some (sentHello sni version random) else none := by
  have hlength := length_extensions sni
  rw [whole_helloBody]
  split
  · rename_i h
    have hlt : (extensions sni).length < 256 ^ 2 := by
      cases sni with
      | none => simp only at hlength; omega
      | some name =>
        have hname : name.utf8ByteSize ≤ 65480 := h
        simp only at hlength
        omega
    refine Takes.whole ((takes_vector _ _ hlt).bind_last ?_)
    rw [every_extension h]
    exact (takes_found _).bind_last (.pure _)
  · rename_i h
    have hle : 256 ^ 2 ≤ (extensions sni).length := by
      cases sni with
      | none => exact absurd (Nat.zero_le _) h
      | some name =>
        have hname : ¬ name.utf8ByteSize ≤ 65480 := h
        simp only at hlength
        omega
    exact whole_vector_of_le hle fun front left hleft => whole_found_bind hleft

/-- A message too long for its length is not read either. -/
theorem whole_helloMessage (sni : Option String) (version : UInt8 × UInt8) (random : Vector UInt8 32) :
    whole helloMessage ([HS_CLIENT_HELLO] ++ vectorBytes 3 (helloBody sni version random)) =
      if sniLength sni ≤ 65480 then some (sentHello sni version random) else none := by
  have hlength := length_extensions sni
  have hbody := length_helloBody sni version random
  unfold helloMessage
  refine ((takes_number (k := 1) (n := 1) (by decide)).whole_bind (t := vectorBytes 3 _)).trans ?_
  refine ((takes_demand (p := 1 = HS_CLIENT_HELLO.toNat) rfl).whole_bind (t := vectorBytes 3 _)).trans ?_
  by_cases h : (helloBody sni version random).length < 256 ^ 3
  · rw [(takes_vector _ _ h).whole_bind_last, whole_helloFields]
    split <;> rfl
  · have hlong : ¬ sniLength sni ≤ 65480 := by
      cases sni with
      | none => simp only at hlength; omega
      | some name =>
        show ¬ name.utf8ByteSize ≤ 65480
        simp only at hlength
        omega
    rw [if_neg hlong]
    exact whole_vector_of_le (not_lt.mp h) fun front left hleft => whole_found hleft

/-! ## Records -/

theorem putU16_eq (n : Nat) : putU16 n = u16Bytes n := by
  simp [putU16, beBytes, u16Bytes]

theorem split_encode (fs : List Fragment) : framing.split (fs.flatMap (·.encode)) = (fs.map (·.record), []) := by
  induction fs with
  | nil => exact framing.split_of_none framing.next_nil
  | cons f fs ih => rw [List.flatMap_cons, framing.split_of_some (next_encode f _), ih, List.map_cons]

/-- The records of a message, as the chunks are. -/
theorem flatMap_record (chunks : List (List UInt8)) (h : ∀ c ∈ chunks, c.length < 65536) :
    ∃ fs : List Fragment, (∀ f ∈ fs, f.payload ∈ chunks) ∧ fs.flatMap (·.payload) = chunks.flatten ∧
      (chunks.flatMap fun chunk => [MSG_HANDSHAKE, 3, 0] ++ putU16 chunk.length ++ chunk) = fs.flatMap (·.encode) := by
  induction chunks with
  | nil => exact ⟨[], by simp, rfl, rfl⟩
  | cons c chunks ih =>
    rw [List.forall_mem_cons] at h
    obtain ⟨fs, hmem, hflatten, hencode⟩ := ih h.2
    refine ⟨⟨3, 0, c, h.1⟩ :: fs, ?_, ?_, ?_⟩
    · rw [List.forall_mem_cons]
      exact ⟨List.mem_cons_self, fun f hf => List.mem_cons_of_mem _ (hmem f hf)⟩
    · rw [List.flatMap_cons, hflatten, List.flatten_cons]
    · rw [List.flatMap_cons, hencode, List.flatMap_cons, putU16_eq]
      rfl

theorem clientHello_fragments (sni : Option String) (version : UInt8 × UInt8) (random : Vector UInt8 32) :
    ∃ fs : List Fragment, clientHello sni version random = fs.flatMap (·.encode) ∧
      (∀ f ∈ fs, isHandshake f.record = true) ∧
      fs.flatMap (·.payload) = [HS_CLIENT_HELLO] ++ vectorBytes 3 (helloBody sni version random) := by
  have hlen {c : List UInt8} (hc : c ∈ ([HS_CLIENT_HELLO] ++ beBytes 3 (helloBody sni version random).length ++
      helloBody sni version random).toChunks 0x4000) := length_of_mem_toChunks hc
  obtain ⟨fs, hmem, hflatten, hencode⟩ := flatMap_record _ fun c hc => lt_of_le_of_lt (hlen hc).2 (by decide)
  refine ⟨fs, hencode, fun f hf => ?_, ?_⟩
  · have hf := hlen (hmem f hf)
    exact decide_eq_true ⟨rfl, hf.1, hf.2⟩
  · rw [hflatten, flatten_toChunks, vectorBytes, List.append_assoc]

/-- The hello that is sent is read as it was meant, if the name is not too long
for the extensions' length, and else not at all. -/
theorem readHello_clientHello (sni : Option String) (version : UInt8 × UInt8) (random : Vector UInt8 32) :
    readHello (clientHello sni version random) =
      if sniLength sni ≤ 65480 then some (sentHello sni version random) else none := by
  obtain ⟨fs, hencode, hall, hpayload⟩ := clientHello_fragments sni version random
  have hrecords : (fs.map (·.record)).all isHandshake = true := by
    rw [List.all_map, List.all_eq_true]
    exact hall
  have hflat : (fs.map (·.record)).flatMap (·.payload) = fs.flatMap (·.payload) := by
    rw [List.flatMap_map]
    rfl
  rw [← whole_helloMessage, ← hpayload, ← hflat, readHello, hencode, split_encode]
  show (if (([] : List UInt8).isEmpty && (fs.map (·.record)).all isHandshake) = true then _ else none) = _
  rw [hrecords]
  rfl

end Starla.Proof.Measurements.Tls
