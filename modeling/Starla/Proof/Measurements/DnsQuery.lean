import Starla.Framework.Takers
import Starla.Impl.Measurements.DnsQuery
import Starla.Proof.Measurements.DnsName

/-!
# A server reads the query

What a name server takes a packet for, and what comes of an answer to it.

* `Query`, `readQuery` : a query, with its EDNS records.
* `readQuery_buildQuery` : a query that is built is one that was asked for, over
  UDP and over TCP.
* `awaitReply_of_answer`, `tcpReply_of_answer` : an answer with the query's id is
  the reply, whatever else comes before it.
-/

namespace Starla.Proof.Measurements.Dns

open Starla.Framework Starla.Impl.Measurements Starla.Impl.Measurements.Dns Starla.Impl.Measurements.DnsName
open Starla.Proof.Measurements.DnsName (IsLabel dotted encodeLabels_labels length_asBytes length_dotted)

/-- An EDNS record, of type 41 and for the root. -/
structure Edns where
  size : Nat
  extendedRcode : Nat
  version : Nat
  flags : Nat
  /-- Each option's data after its code. -/
  options : List (Nat × List UInt8)
deriving DecidableEq

structure Query where
  id : Nat
  flags : Nat
  name : List (List UInt8)
  qtype : Nat
  qclass : Nat
  edns : List Edns
deriving DecidableEq

/-! ## What a server reads -/

/-- Labels as far as the empty one, fewer than `turns` of them. -/
def labelsFrom : (turns : Nat) → Taker UInt8 (List (List UInt8))
  | 0 => found none
  | turns + 1 => do
    let label ← vector 1
    if label.isEmpty then return []
    else
      -- a longer one is a pointer
      demand (label.length ≤ 63)
      let labels ← labelsFrom turns
      return label :: labels

/-- A name of at most 255 bytes. -/
def domainName : Taker UInt8 (List (List UInt8)) := do
  let labels ← labelsFrom 128
  demand ((prefixed labels).length + 1 ≤ 255)
  return labels

def ednsOption : Taker UInt8 (Nat × List UInt8) := do
  let code ← number 2
  let data ← vector 2
  return (code, data)

def ednsRecord : Taker UInt8 Edns := do
  demand ((← domainName) = [])
  demand ((← number 2) = 41)
  let size ← number 2
  let extendedRcode ← number 1
  let version ← number 1
  let flags ← number 2
  let options ← listOf 2 ednsOption
  return ⟨size, extendedRcode, version, flags, options⟩

/-- One question, no answers, and no other additional records. -/
def queryMessage : Taker UInt8 Query := do
  let id ← number 2
  let flags ← number 2
  demand ((← number 2) = 1)
  demand ((← number 2) = 0)
  demand ((← number 2) = 0)
  let additional ← number 2
  let name ← domainName
  let qtype ← number 2
  let qclass ← number 2
  let edns ← times ednsRecord additional
  return ⟨id, flags, name, qtype, qclass, edns⟩

def readQuery (packet : List UInt8) : Option Query := whole queryMessage packet

/-- What is read of a connection. -/
def readTcpQuery (stream : List UInt8) : Option Query := (whole (vector 2) stream).bind readQuery

/-! ## What is asked -/

def sentOptions (cfg : DnsConfig) (v4 : Bool) (cookie : Vector UInt8 8) : List (Nat × List UInt8) :=
  (if cfg.nsid then [(3, [])] else []) ++
    (if cfg.clientSubnet then [(8, [0, if v4 then 1 else 2, 0, 0])] else []) ++
    (if cfg.cookies then [(10, cookie.toList)] else []) ++
    (if cfg.ednsOption != 0 then [(cfg.ednsOption.toNat, [])] else [])

/-- The EDNS record, its size cut to 16 bits. -/
def sentEdns (cfg : DnsConfig) (v4 : Bool) (cookie : Vector UInt8 8) : Edns where
  size := cfg.edns0.toNat % 65536
  extendedRcode := 0
  version := cfg.ednsVersion.toNat
  flags := (cfg.ednsFlags ||| bit cfg.dnssec 0x8000).toNat
  options := sentOptions cfg v4 cookie

def sentQuery (cfg : DnsConfig) (labels : List (List UInt8)) (id : UInt16) (v4 : Bool) (cookie : Vector UInt8 8) :
    Query where
  id := id.toNat
  flags := (if cfg.resolv || cfg.rd then 0x0100 else 0) + (if cfg.ad then 0x0020 else 0) + (if cfg.cd then 0x0010 else 0)
  name := labels
  qtype := cfg.qtype.toNat
  qclass := cfg.qclass.toNat
  edns := if opt cfg then [sentEdns cfg v4 cookie] else []

/-- The labels a text has between its dots. -/
def Spells (name : String) (labels : List (List UInt8)) : Prop :=
  (∀ label ∈ labels, IsLabel label) ∧ asBytes name = if name = "." then [0x2E] else dotted labels

/-! ## Names -/

theorem takes_labelsFrom {labels : List (List UInt8)} (h : ∀ label ∈ labels, IsLabel label) {turns : Nat}
    (hturns : labels.length < turns) : Takes (labelsFrom turns) (prefixed labels ++ [0]) labels := by
  induction labels generalizing turns with
  | nil =>
    obtain ⟨turns, rfl⟩ : ∃ n, turns = n + 1 := ⟨turns - 1, by rw [List.length_nil] at hturns; omega⟩
    rw [labelsFrom]
    apply (takes_vector 1 [] (by decide)).bind_last
    exact .pure []
  | cons label labels ih =>
    rw [List.forall_mem_cons] at h
    obtain ⟨turns, rfl⟩ : ∃ n, turns = n + 1 := ⟨turns - 1, by rw [List.length_cons] at hturns; omega⟩
    have hle := h.1.le
    have hlabel : Takes (vector 1) (UInt8.ofNat label.length :: label) label := by
      have hvector := takes_vector 1 label (by omega)
      rw [vectorBytes, beBytes, Nat.pow_zero, Nat.div_one] at hvector
      exact hvector
    have hne : label.isEmpty = false := List.isEmpty_eq_false_iff.mpr (List.length_pos_iff.mp h.1.pos)
    rw [prefixed_cons, List.cons_append, List.append_assoc, ← List.cons_append, labelsFrom]
    apply hlabel.bind
    rw [hne]
    apply (takes_demand hle).bind (s := [])
    apply (@ih h.2 turns ?_).bind_last
    · exact .pure _
    · rw [List.length_cons] at hturns
      omega

theorem length_prefixed_ge {labels : List (List UInt8)} (h : ∀ label ∈ labels, IsLabel label) :
    2 * labels.length ≤ (prefixed labels).length := by
  induction labels with
  | nil => simp
  | cons label labels ih =>
    rw [List.forall_mem_cons] at h
    have hpos := h.1.pos
    have := ih h.2
    rw [prefixed_cons, List.length_cons, List.length_cons, List.length_append]
    omega

theorem takes_domainName (labels : List (List UInt8)) (h : ∀ label ∈ labels, IsLabel label)
    (hlen : (prefixed labels).length ≤ 254) : Takes domainName (prefixed labels ++ [0]) labels := by
  have htwice := length_prefixed_ge h
  unfold domainName
  apply (takes_labelsFrom h (by omega)).bind_last
  apply (takes_demand (by omega)).bind_last
  exact .pure labels

/-- What is encoded of a name are the labels it spells. -/
theorem spells_of_encodeName {name : String} {wire : List UInt8} (h : encodeName name = some wire) :
    ∃ labels, Spells name labels ∧ wire = prefixed labels ++ [0] ∧ (prefixed labels).length ≤ 254 := by
  unfold encodeName at h
  split_ifs at h with hlen hroot
  · rw [Option.some.injEq] at h
    subst hroot
    exact ⟨[], ⟨by simp, by rw [if_pos rfl]; decide⟩, h.symm, by simp⟩
  · obtain ⟨labels, hbytes, hwire, hlabels⟩ := encodeLabels_labels h
    refine ⟨labels, ⟨hlabels, by rw [if_neg hroot, hbytes]⟩, hwire, ?_⟩
    rw [← length_dotted, ← hbytes, length_asBytes]
    rw [MAXLEN] at hlen
    omega

/-! ## Records -/

variable {cfg : DnsConfig} {v4 : Bool} {cookie : Vector UInt8 8}

theorem optData_eq : optData cfg v4 cookie =
    (sentOptions cfg v4 cookie).flatMap fun option => beBytes 2 option.1 ++ vectorBytes 2 option.2 := by
  have hcookie : vectorBytes 2 cookie.toList = [0, 8] ++ cookie.toList := by
    rw [vectorBytes, Vector.length_toList]
    rfl
  unfold optData sentOptions
  simp only [List.flatMap_append]
  congr 1
  · congr 1
    · congr 1
      · cases cfg.nsid <;> rfl
      · cases cfg.clientSubnet <;> cases v4 <;> rfl
    · cases cfg.cookies
      · rfl
      · simp [hcookie, beBytes]
  · split
    · simp [vectorBytes, beBytes]
    · rfl

theorem length_optData : (optData cfg v4 cookie).length ≤ 28 := by
  unfold optData
  simp only [List.length_append]
  have hnsid : (if cfg.nsid then [0, 3, 0, 0] else [] : List UInt8).length ≤ 4 := by split <;> simp
  have hsubnet : (if cfg.clientSubnet then [0, 8, 0, 4, 0, if v4 then 1 else 2, 0, 0] else [] : List UInt8).length ≤ 8 := by
    split <;> simp
  have hcookies : (if cfg.cookies then [0, 10, 0, 8] ++ cookie.toList else [] : List UInt8).length ≤ 12 := by
    split <;> simp
  have hoption : (if cfg.ednsOption != 0 then beBytes 2 cfg.ednsOption.toNat ++ [0, 0] else [] : List UInt8).length ≤ 4 := by
    split <;> simp
  omega

theorem sentOptions_fit : ∀ option ∈ sentOptions cfg v4 cookie, option.1 < 65536 ∧ option.2.length < 65536 := by
  have hone {p : Prop} [Decidable p] {option : Nat × List UInt8} (h : option.1 < 65536 ∧ option.2.length < 65536) :
      ∀ o ∈ (if p then [option] else []), o.1 < 65536 ∧ o.2.length < 65536 := by
    split
    · rwa [List.forall_mem_singleton]
    · simp
  have hcookie : cookie.toList.length < 65536 := by simp
  unfold sentOptions
  simp only [List.forall_mem_append]
  exact ⟨⟨⟨hone (by simp), hone (by simp)⟩, hone ⟨by simp, hcookie⟩⟩, hone ⟨cfg.ednsOption.toNat_lt, by simp⟩⟩

theorem takes_options : Takes (listOf 2 ednsOption) (vectorBytes 2 (optData cfg v4 cookie)) (sentOptions cfg v4 cookie) := by
  have hlen := @length_optData cfg v4 cookie
  rw [optData_eq] at hlen ⊢
  refine takes_listOf (by omega) fun option hmem => ⟨?_, List.cons_ne_nil _ _⟩
  obtain ⟨hcode, hdata⟩ := sentOptions_fit option hmem
  unfold ednsOption
  apply (takes_number hcode).bind
  apply (takes_vector 2 _ hdata).bind_last
  exact .pure option

/-- The EDNS record's bytes. -/
def ednsBytes (cfg : DnsConfig) (v4 : Bool) (cookie : Vector UInt8 8) : List UInt8 :=
  [0] ++ (beBytes 2 41 ++ (beBytes 2 cfg.edns0.toNat ++ (beBytes 1 0 ++ (beBytes 1 cfg.ednsVersion.toNat ++
    (beBytes 2 (cfg.ednsFlags ||| bit cfg.dnssec 0x8000).toNat ++ vectorBytes 2 (optData cfg v4 cookie))))))

theorem takes_ednsRecord : Takes ednsRecord (ednsBytes cfg v4 cookie) (sentEdns cfg v4 cookie) := by
  unfold ednsRecord ednsBytes
  apply (takes_domainName [] (by simp) (by simp)).bind
  apply (takes_demand rfl).bind (s := [])
  apply (takes_number (n := 41) (by decide)).bind
  apply (takes_demand rfl).bind (s := [])
  apply (takes_number_mod 2 cfg.edns0.toNat).bind
  apply (takes_number (n := 0) (by decide)).bind
  apply (takes_number cfg.ednsVersion.toNat_lt).bind
  apply (takes_number (UInt16.toNat_lt _)).bind
  apply takes_options.bind_last
  exact .pure _

/-! ## Queries -/

variable {name : String} {id : UInt16} {wire : List UInt8}

/-- A query's bytes, `edns` those of its EDNS records. -/
def packet (cfg : DnsConfig) (id : UInt16) (qname : List UInt8) (edns : List (List UInt8)) : List UInt8 :=
  beBytes 2 id.toNat ++ (beBytes 2 (queryFlags cfg).toNat ++ (beBytes 2 1 ++ (beBytes 2 0 ++ (beBytes 2 0 ++
    (beBytes 2 edns.length ++ (qname ++ (beBytes 2 cfg.qtype.toNat ++ (beBytes 2 cfg.qclass.toNat ++ edns.flatten))))))))

theorem beBytes_toNat (b : UInt8) : beBytes 1 b.toNat = [b] := by
  simp [beBytes]

/-- The counts of a header, of one question and one additional record. -/
theorem set_arcount (i f : Nat) (rest : List UInt8) :
    (beBytes 2 i ++ (beBytes 2 f ++ ([0, 1, 0, 0, 0, 0, 0, 0] ++ rest))).set 11 1 =
      beBytes 2 i ++ (beBytes 2 f ++ (beBytes 2 1 ++ (beBytes 2 0 ++ (beBytes 2 0 ++ (beBytes 2 1 ++ rest))))) := by
  simp [beBytes]

theorem buildQuery_eq : buildQuery cfg name id v4 cookie = (encodeName name).map fun qname =>
    packet cfg id qname (if opt cfg then [ednsBytes cfg v4 cookie] else []) := by
  unfold buildQuery
  cases encodeName name with
  | none => rfl
  | some qname =>
    show (if opt cfg then _ else _ : Option (List UInt8)) = some _
    split
    · simp only [packet, ednsBytes, vectorBytes, beBytes_toNat, List.append_assoc, List.flatten_singleton, set_arcount]
      rfl
    · simp only [packet, List.append_assoc, List.flatten_nil, List.append_nil]
      rfl

theorem toNat_queryFlags (cfg : DnsConfig) : (queryFlags cfg).toNat =
    (if cfg.resolv || cfg.rd then 0x0100 else 0) + (if cfg.ad then 0x0020 else 0) + (if cfg.cd then 0x0010 else 0) := by
  unfold queryFlags
  cases cfg.resolv || cfg.rd <;> cases cfg.ad <;> cases cfg.cd <;> rfl

theorem takes_packet {labels : List (List UInt8)} (hlabels : ∀ label ∈ labels, IsLabel label)
    (hlen : (prefixed labels).length ≤ 254) :
    Takes queryMessage (packet cfg id (prefixed labels ++ [0]) (if opt cfg then [ednsBytes cfg v4 cookie] else []))
      (sentQuery cfg labels id v4 cookie) := by
  have hcount : (if opt cfg then [ednsBytes cfg v4 cookie] else []).length = (sentQuery cfg labels id v4 cookie).edns.length ∧
      (if opt cfg then [ednsBytes cfg v4 cookie] else []).flatten =
        (sentQuery cfg labels id v4 cookie).edns.flatMap fun _ => ednsBytes cfg v4 cookie := by
    unfold sentQuery
    split <;> simp
  have hedns : ∀ edns ∈ (sentQuery cfg labels id v4 cookie).edns, Takes ednsRecord (ednsBytes cfg v4 cookie) edns := by
    unfold sentQuery
    dsimp only
    split
    · rw [List.forall_mem_singleton]
      exact takes_ednsRecord
    · simp
  have hsmall : (sentQuery cfg labels id v4 cookie).edns.length < 65536 := by
    unfold sentQuery
    dsimp only
    split <;> simp
  unfold queryMessage packet
  rw [hcount.1, hcount.2]
  apply (takes_number id.toNat_lt).bind
  apply (takes_number (queryFlags cfg).toNat_lt).bind
  apply (takes_number (n := 1) (by decide)).bind
  apply (takes_demand rfl).bind (s := [])
  apply (takes_number (n := 0) (by decide)).bind
  apply (takes_demand rfl).bind (s := [])
  apply (takes_number (n := 0) (by decide)).bind
  apply (takes_demand rfl).bind (s := [])
  apply (takes_number hsmall).bind
  apply (takes_domainName labels hlabels hlen).bind
  apply (takes_number cfg.qtype.toNat_lt).bind
  apply (takes_number cfg.qclass.toNat_lt).bind
  apply (takes_times hedns).bind_last
  rw [toNat_queryFlags]
  exact .pure _

theorem length_packet {qname : List UInt8} (hlen : qname.length ≤ 255) :
    (packet cfg id qname (if opt cfg then [ednsBytes cfg v4 cookie] else [])).length ≤ 310 := by
  have hdata := @length_optData cfg v4 cookie
  unfold packet
  split <;> simp [ednsBytes, vectorBytes] <;> omega

theorem readTcpQuery_tcpWire (h : wire.length < 65536) : readTcpQuery (tcpWire wire) = readQuery wire := by
  have hvector : whole (vector 2) (tcpWire wire) = some wire := (takes_vector 2 wire h).whole
  rw [readTcpQuery, hvector, Option.bind_some]

/-- A query is built of a name that can be encoded, and is read as asked for:
its name's labels, and an EDNS record if something needs one. -/
theorem readQuery_buildQuery (hwire : buildQuery cfg name id v4 cookie = some wire) :
    ∃ labels, Spells name labels ∧ readQuery wire = some (sentQuery cfg labels id v4 cookie) ∧
      readTcpQuery (tcpWire wire) = some (sentQuery cfg labels id v4 cookie) := by
  rw [buildQuery_eq, Option.map_eq_some_iff] at hwire
  obtain ⟨qname, hname, rfl⟩ := hwire
  obtain ⟨labels, hspells, rfl, hlen⟩ := spells_of_encodeName hname
  have hread := (@takes_packet cfg v4 cookie id labels hspells.1 hlen).whole
  have hlength := @length_packet cfg v4 cookie id (prefixed labels ++ [0])
    (by rw [List.length_append, List.length_singleton]; omega)
  refine ⟨labels, hspells, hread, ?_⟩
  rw [readTcpQuery_tcpWire (by omega)]
  exact hread

/-! ## Answers -/

/-- A server answers with the id it read, in as many bytes as are kept. -/
structure Server where
  answer : Query → List UInt8
  id : ∀ q, (answer q).take 2 = beBytes 2 q.id
  header : ∀ q, DNS_HEADER ≤ (answer q).length
  kept : ∀ q, (answer q).length ≤ MAX_DNS_BUF_SIZE

/-- A datagram is taken for the reply to the query. -/
def Accepted (id : UInt16) : Received → Prop
  | .failed => False
  | .datagram bytes _ =>
    DNS_HEADER ≤ (bytes.take MAX_DNS_BUF_SIZE).length ∧ (bytes.take MAX_DNS_BUF_SIZE).take 2 = beBytes 2 id.toNat

theorem awaitReply_of_not {r : Received} (h : ¬ Accepted id r) (rest : List Received) :
    awaitReply id (r :: rest) = awaitReply id rest := by
  cases r with
  | failed => rfl
  | datagram bytes ttl =>
    show (if _ then awaitReply id rest else _) = _
    rw [if_pos]
    simp only [Bool.or_eq_true, decide_eq_true_eq, bne_iff_ne]
    by_cases hlen : (bytes.take MAX_DNS_BUF_SIZE).length < DNS_HEADER
    · exact .inl hlen
    · exact .inr fun hid => h ⟨not_lt.mp hlen, hid⟩

theorem awaitReply_of_accepted {bytes : List UInt8} {ttl : Option Int} (h : Accepted id (.datagram bytes ttl))
    {before : List Received} (hbefore : ∀ r ∈ before, ¬ Accepted id r) (after : List Received) :
    awaitReply id (before ++ .datagram bytes ttl :: after) = some (bytes.take MAX_DNS_BUF_SIZE, ttl) := by
  induction before with
  | nil =>
    obtain ⟨hlen, hid⟩ := h
    show (if _ then awaitReply id after else _) = _
    rw [if_neg]
    simp only [Bool.or_eq_true, decide_eq_true_eq, bne_iff_ne, not_or, not_not]
    exact ⟨not_lt.mpr hlen, hid⟩
  | cons r before ih =>
    rw [List.forall_mem_cons] at hbefore
    rw [List.cons_append, awaitReply_of_not hbefore.1]
    exact ih hbefore.2

theorem tcpReply_tcpWire {reply : List UInt8} (hid : reply.take 2 = beBytes 2 id.toNat) (hheader : DNS_HEADER ≤ reply.length)
    (hlen : reply.length < 65536) (more : List UInt8) (closed : Bool) :
    tcpReply id (tcpWire reply ++ more) closed = .reply reply := by
  have hprefix : (beBytes 2 reply.length ++ (reply ++ more)).take 2 = beBytes 2 reply.length := rfl
  have hrest : (beBytes 2 reply.length ++ (reply ++ more)).drop 2 = reply ++ more := rfl
  have hshort : ¬ (beBytes 2 reply.length ++ (reply ++ more)).length < 2 := by
    rw [List.length_append, length_beBytes]
    omega
  have hrestlen : ¬ (reply ++ more).length < reply.length := by simp
  unfold tcpReply tcpWire
  dsimp only
  rw [List.append_assoc, hprefix, hrest, if_neg hshort, beNat_beBytes, Nat.mod_eq_of_lt (b := 256 ^ 2) hlen, if_neg (not_lt.mpr hheader),
    if_neg hrestlen, List.take_left, if_pos hid]

theorem answer_awaited (server : Server) {q : Query} (hid : q.id = id.toNat) (ttl : Option Int) {before : List Received}
    (hbefore : ∀ r ∈ before, ¬ Accepted id r) (after : List Received) :
    awaitReply id (before ++ .datagram (server.answer q) ttl :: after) = some (server.answer q, ttl) := by
  have htake : (server.answer q).take MAX_DNS_BUF_SIZE = server.answer q := List.take_of_length_le (server.kept q)
  have haccepted : Accepted id (.datagram (server.answer q) ttl) := by
    rw [Accepted, htake, ← hid]
    exact ⟨server.header q, server.id q⟩
  rw [awaitReply_of_accepted haccepted hbefore, htake]

theorem answer_over_tcp (server : Server) {q : Query} (hid : q.id = id.toNat) (more : List UInt8) (closed : Bool) :
    tcpReply id (tcpWire (server.answer q) ++ more) closed = .reply (server.answer q) := by
  have hkept : (server.answer q).length ≤ 5120 := server.kept q
  apply tcpReply_tcpWire
  · rw [← hid]
    exact server.id q
  · exact server.header q
  · omega

/-- A query for a server's version, with its name server id. -/
def bindConfig : DnsConfig where
  server := "192.0.2.1"
  af := 4
  tcp := false
  port := 53
  qtype := 16
  qclass := 3
  query := "version.bind."
  resolv := false
  interface := none
  rd := false
  ad := false
  cd := false
  dnssec := false
  nsid := true
  clientSubnet := false
  cookies := false
  edns0 := 1200
  ednsVersion := 0
  ednsFlags := 0
  ednsOption := 0
  qbuf := false
  abuf := true
  prependProbeId := false
  timeoutMs := 5000
  retry := 0
  bundle := none
  ttl := false

/-- A server that says nothing. -/
def emptyServer : Server where
  answer q := beBytes 2 q.id ++ List.replicate 10 0
  id q := List.take_left' (length_beBytes 2 q.id)
  header q := by simp [DNS_HEADER]
  kept q := by simp [MAX_DNS_BUF_SIZE]

end Starla.Proof.Measurements.Dns
