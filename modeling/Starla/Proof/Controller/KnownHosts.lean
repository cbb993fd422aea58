import Starla.Framework.Run
import Starla.Impl.Controller.KnownHosts
import Starla.Proof.Controller.Registration

/-!
# Host keys stay pinned

* `lookup_load_render` : a map written in any order is read back.
* `synced_step` : the file holds what the map does.
* `host_keys_pinned` : from the first key accepted for a host and port on,
  exactly the keys with its blob are, and nothing saved is changed or lost.
-/

namespace Starla.Proof.Controller

open Starla.Framework Starla.Impl.Controller Starla.Impl.Controller.KnownHosts

/-! ## One line -/

/-- An entry whose line is read as that entry. -/
structure Storable (host key : String) : Prop where
  line : IsValue (host ++ " " ++ key).toList
  entry : hostEntry (host ++ " " ++ key).toList = some (host, key)

theorem storable_of_hostEntry {line : List Char} {host key : String} (hline : '\n' ∉ line)
    (h : hostEntry line = some (host, key)) : Storable host key := by
  have htext : (host ++ " " ++ key).toList = trim line := by
    unfold hostEntry at h
    dsimp only at h
    split_ifs at h
    cases h1 : splitOnce ' ' (trim line) with
    | none => simp [h1] at h
    | some s =>
      obtain ⟨a, rest⟩ := s
      cases h2 : splitOnce ' ' rest with
      | none => simp [h1, h2] at h
      | some s =>
        obtain ⟨b, c⟩ := s
        simp only [h1, h2, Option.bind_eq_bind, Option.bind_some, Option.some.injEq, Prod.mk.injEq] at h
        obtain ⟨rfl, rfl⟩ := h
        simp [splitOnce_eq_some h1, splitOnce_eq_some h2]
  refine ⟨htext ▸ isValue_trim hline, ?_⟩
  rw [htext, ← h]
  simp only [hostEntry, trim_trim]

/-- A host name that a line can start with. -/
structure IsHost (host : String) : Prop where
  noBlank : ∀ c ∈ host.toList, isWhitespace c = false
  noComment : host.toList.head? ≠ some '#'

structure IsKey (key : PublicKey) : Prop where
  algorithm : IsWord key.algorithm.toList
  base64 : IsWord key.base64.toList

theorem isWord_hostPort {host : String} (h : IsHost host) (port : UInt16) :
    IsWord (hostPort host port).toList where
  ne_nil := by simp [hostPort]
  noBlank c hc := by
    have hport : ∀ c ∈ (toString port).toList, isWhitespace c = false := by
      show ∀ c ∈ (toString port.toNat).toList, _
      rw [Nat.toString_eq_ofList_toDigits, String.toList_ofList]
      exact (isWord_toDigits _).noBlank
    simp only [hostPort, String.toList_append, List.mem_append] at hc
    rcases hc with (hc | hc) | hc
    · exact h.noBlank c hc
    · rw [show c = ':' by simpa using hc]
      rfl
    · exact hport c hc

theorem head_hostPort {host : String} (h : IsHost host) (port : UInt16) :
    (hostPort host port).toList.head? ≠ some '#' := by
  simp only [hostPort, String.toList_append]
  cases hhost : host.toList with
  | nil => simp
  | cons c cs =>
    have hc := h.noComment
    rw [hhost] at hc
    simpa using hc

theorem storable_accepted {host : String} {key : PublicKey} (hhost : IsHost host) (hkey : IsKey key)
    (port : UInt16) : Storable (hostPort host port) (key.algorithm ++ " " ++ key.base64) := by
  have hword := isWord_hostPort hhost port
  have hblank : ∀ {cs : List Char}, IsWord cs → ' ' ∉ cs := fun h hc => absurd (h.noBlank _ hc) (by decide)
  have hend : ∀ {cs : List Char}, IsWord cs → '\n' ∉ cs := fun h hc => absurd (h.noBlank _ hc) (by decide)
  have htext : (hostPort host port ++ " " ++ (key.algorithm ++ " " ++ key.base64)).toList =
      (hostPort host port).toList ++ ' ' :: (key.algorithm.toList ++ ' ' :: key.base64.toList) := by simp
  have hvalue : IsValue ((hostPort host port).toList ++ ' ' :: (key.algorithm.toList ++ ' ' :: key.base64.toList)) := by
    refine ⟨?_, trim_eq_self ?_ ?_⟩
    · simp [hend hword, hend hkey.algorithm, hend hkey.base64]
    · rw [List.head?_append_of_ne_nil _ hword.ne_nil]
      exact fun c hc => hword.noBlank c (List.mem_of_mem_head? hc)
    · have hlast : ((hostPort host port).toList ++ ' ' :: (key.algorithm.toList ++ ' ' :: key.base64.toList)).getLast? =
          key.base64.toList.getLast? := by
        rw [List.getLast?_append_of_ne_nil _ (by simp), List.getLast?_cons_of_ne_nil (by simp),
          List.getLast?_append_of_ne_nil _ (by simp), List.getLast?_cons_of_ne_nil hkey.base64.ne_nil]
      rw [hlast]
      exact fun c hc => hkey.base64.noBlank c (List.mem_of_mem_getLast? hc)
  refine ⟨htext ▸ hvalue, ?_⟩
  have hhead : ((hostPort host port).toList ++ ' ' :: (key.algorithm.toList ++ ' ' :: key.base64.toList)).head? ≠
      some '#' := by
    rw [List.head?_append_of_ne_nil _ hword.ne_nil]
    exact head_hostPort hhost port
  rw [htext, hostEntry, hvalue.trimmed]
  dsimp only
  rw [if_neg (by simpa using hhead), splitOnce_append (hblank hword)]
  simp [splitOnce_append (hblank hkey.algorithm)]

theorem words_pair {a b : List Char} (ha : IsWord a) (hb : IsWord b) :
    words isWhitespace (a ++ ' ' :: b) = [a, b] := by
  have hb' : wordsFrom isWhitespace [] b = [b] := by
    have h : wordsFrom isWhitespace [] b = if ([] ++ b).isEmpty then [] else [[] ++ b] :=
      wordsFrom_of_forall hb.noBlank
    simpa [hb.ne_nil] using h
  rw [words, wordsFrom_append ha.noBlank (by decide), hb']
  simp [ha.ne_nil]

/-- The blob of a key that was accepted is that key's. -/
theorem savedBlob_accepted {key : PublicKey} (h : IsKey key) :
    savedBlob (key.algorithm ++ " " ++ key.base64) = key.base64 := by
  have htext : (key.algorithm ++ " " ++ key.base64).toList = key.algorithm.toList ++ ' ' :: key.base64.toList := by
    simp
  rw [savedBlob, htext, words_pair h.algorithm h.base64]
  simp

/-! ## The whole file -/

theorem lookup_insertAll_of_notMem {host : String} {es : List (String × String)} {m : Assoc String String}
    (h : host ∉ es.map Prod.fst) : (insertAll m es).lookup host = m.lookup host := by
  induction es generalizing m with
  | nil => rfl
  | cons e es ih =>
    rw [List.map_cons, List.mem_cons, not_or] at h
    rw [show insertAll m (e :: es) = insertAll (m.insert e.1 e.2) es from rfl, ih h.2, AList.lookup_insert_ne h.1]

theorem lookup_insertAll_of_mem {host key : String} {es : List (String × String)} {m : Assoc String String}
    (hnodup : (es.map Prod.fst).Nodup) (h : (host, key) ∈ es) : (insertAll m es).lookup host = some key := by
  induction es generalizing m with
  | nil => exact absurd h List.not_mem_nil
  | cons e es ih =>
    rw [List.map_cons, List.nodup_cons] at hnodup
    rw [show insertAll m (e :: es) = insertAll (m.insert e.1 e.2) es from rfl]
    rcases List.mem_cons.mp h with rfl | h
    · rw [lookup_insertAll_of_notMem hnodup.1, AList.lookup_insert]
    · exact ih hnodup.2 h

theorem mem_insertAll {host key : String} {es : List (String × String)} {m : Assoc String String}
    (h : (insertAll m es).lookup host = some key) : (host, key) ∈ es ∨ m.lookup host = some key := by
  induction es generalizing m with
  | nil => exact .inr h
  | cons e es ih =>
    rcases ih (m := m.insert e.1 e.2) h with h | h
    · exact .inl (List.mem_cons_of_mem _ h)
    · by_cases hhost : host = e.1
      · subst hhost
        rw [AList.lookup_insert, Option.some.injEq] at h
        exact .inl (h ▸ List.mem_cons_self)
      · rw [AList.lookup_insert_ne hhost] at h
        exact .inr h

/-- Every entry of a map has a line of its own. -/
def AllStorable (m : Assoc String String) : Prop :=
  ∀ host key, m.lookup host = some key → Storable host key

theorem allStorable_load (file : Option String) : AllStorable (load file).hosts := by
  intro host key h
  rcases mem_insertAll h with hmem | hmem
  · cases file with
    | none => exact absurd hmem List.not_mem_nil
    | some text =>
      obtain ⟨line, hline, hentry⟩ := List.mem_filterMap.mp hmem
      exact storable_of_hostEntry (not_mem_of_mem_lines hline) hentry
  · exact absurd hmem (by simp)

/-- The entries of a map in some order. -/
def arranged (order : IterationOrder) (m : Assoc String String) : List (String × String) :=
  (order.arrange m.entries).map fun e => (e.1, e.2)

theorem mem_arranged {order : IterationOrder} {m : Assoc String String} {host key : String} :
    (host, key) ∈ arranged order m ↔ m.lookup host = some key := by
  rw [← Option.mem_def, AList.mem_lookup_iff, arranged, List.mem_map]
  constructor
  · rintro ⟨⟨h, k⟩, he, heq⟩
    cases heq
    exact (order.perm m.entries).mem_iff.mp he
  · exact fun h => ⟨⟨host, key⟩, (order.perm m.entries).mem_iff.mpr h, rfl⟩

theorem nodup_arranged (order : IterationOrder) (m : Assoc String String) :
    ((arranged order m).map Prod.fst).Nodup := by
  have hkeys : ((order.arrange m.entries).map Sigma.fst).Nodup :=
    ((order.perm m.entries).map Sigma.fst).nodup_iff.mpr m.nodupKeys
  rwa [arranged, List.map_map]

theorem filterMap_hostEntry {es : List (String × String)} (h : ∀ e ∈ es, Storable e.1 e.2) :
    (es.map fun e => (e.1 ++ " " ++ e.2).toList).filterMap hostEntry = es := by
  induction es with
  | nil => rfl
  | cons e es ih =>
    rw [List.map_cons, List.filterMap_cons_some (h e List.mem_cons_self).entry,
      ih fun e he => h e (List.mem_cons_of_mem _ he)]

theorem readEntries_render {m : Assoc String String} (h : AllStorable m) (order : IterationOrder) :
    readEntries (render order m) = arranged order m := by
  have hes : ∀ e ∈ arranged order m, Storable e.1 e.2 := fun e he => h e.1 e.2 (mem_arranged.mp he)
  have hheader : IsValue KNOWN_HOSTS_HEADER.toList := ⟨by decide, by decide⟩
  have htext : (order.arrange m.entries).map (fun e => e.1 ++ " " ++ e.2) =
      (arranged order m).map fun e => e.1 ++ " " ++ e.2 := by
    rw [arranged, List.map_map]
    rfl
  have hvalues : ∀ l ∈ KNOWN_HOSTS_HEADER :: (arranged order m).map fun e => e.1 ++ " " ++ e.2,
      IsValue l.toList := by
    intro l hl
    rcases List.mem_cons.mp hl with rfl | hl
    · exact hheader
    · obtain ⟨e, he, rfl⟩ := List.mem_map.mp hl
      exact (hes e he).line
  rw [readEntries, render, htext, lines_intercalate hvalues, List.map_cons, List.filterMap_cons_none (by decide),
    List.map_map]
  exact filterMap_hostEntry hes

theorem lookup_load_render {m : Assoc String String} (h : AllStorable m) (order : IterationOrder) (host : String) :
    (load (some (render order m))).hosts.lookup host = m.lookup host := by
  show (insertAll ∅ (readEntries (render order m))).lookup host = _
  rw [readEntries_render h]
  cases hm : m.lookup host with
  | some key => exact lookup_insertAll_of_mem (nodup_arranged order m) (mem_arranged.mpr hm)
  | none =>
    rw [lookup_insertAll_of_notMem, AList.lookup_empty]
    intro hmem
    obtain ⟨⟨_, key⟩, he, rfl⟩ := List.mem_map.mp hmem
    rw [mem_arranged] at he
    simp [hm] at he

/-! ## Over a history -/

/-- A server's key, presented at a connection. -/
structure Presented where
  host : String
  port : UInt16
  key : PublicKey
  isHost : IsHost host
  isKey : IsKey key

inductive HostEvent
  | verify (p : Presented) (order : IterationOrder)
  | restart

def HostEvent.step (s : KnownHosts) : HostEvent → KnownHosts
  | .verify p order => (s.verify order p.host p.port p.key).2
  | .restart => load s.file

def accepts (s : KnownHosts) (p : Presented) (order : IterationOrder) : Bool :=
  (s.verify order p.host p.port p.key).1

/-- The file holds what the map does, and can go on doing so. -/
structure Synced (s : KnownHosts) : Prop where
  storable : AllStorable s.hosts
  read : ∀ host, (load s.file).hosts.lookup host = s.hosts.lookup host

theorem synced_load (file : Option String) : Synced (load file) := ⟨allStorable_load file, fun _ => rfl⟩

theorem verify_of_some {s : KnownHosts} {p : Presented} {key : String}
    (h : s.hosts.lookup (hostPort p.host p.port) = some key) (order : IterationOrder) :
    s.verify order p.host p.port p.key = (savedBlob key == p.key.base64, s) := by
  simp [verify, h]

theorem verify_of_none {s : KnownHosts} {p : Presented}
    (h : s.hosts.lookup (hostPort p.host p.port) = none) (order : IterationOrder) :
    s.verify order p.host p.port p.key =
      (true, ⟨s.hosts.insert (hostPort p.host p.port) (p.key.algorithm ++ " " ++ p.key.base64),
        some (render order (s.hosts.insert (hostPort p.host p.port) (p.key.algorithm ++ " " ++ p.key.base64)))⟩) := by
  simp [verify, h]

theorem allStorable_insert {m : Assoc String String} (h : AllStorable m) (p : Presented) :
    AllStorable (m.insert (hostPort p.host p.port) (p.key.algorithm ++ " " ++ p.key.base64)) := by
  intro host key hlookup
  by_cases hhost : host = hostPort p.host p.port
  · subst hhost
    rw [AList.lookup_insert, Option.some.injEq] at hlookup
    exact hlookup ▸ storable_accepted p.isHost p.isKey p.port
  · rw [AList.lookup_insert_ne hhost] at hlookup
    exact h host key hlookup

theorem synced_step (s : KnownHosts) (e : HostEvent) (h : Synced s) : Synced (e.step s) := by
  cases e with
  | restart => exact synced_load s.file
  | verify p order =>
    show Synced (s.verify order p.host p.port p.key).2
    cases hlookup : s.hosts.lookup (hostPort p.host p.port) with
    | some key =>
      rw [verify_of_some hlookup]
      exact h
    | none =>
      rw [verify_of_none hlookup]
      exact ⟨allStorable_insert h.storable p, lookup_load_render (allStorable_insert h.storable p) order⟩

/-- What is saved stays as it is. -/
theorem lookup_step {s : KnownHosts} (h : Synced s) {host key : String} (hlookup : s.hosts.lookup host = some key)
    (e : HostEvent) : (e.step s).hosts.lookup host = some key := by
  cases e with
  | restart => exact (h.read host).trans hlookup
  | verify p order =>
    show (s.verify order p.host p.port p.key).2.hosts.lookup host = some key
    cases hp : s.hosts.lookup (hostPort p.host p.port) with
    | some key' => rwa [verify_of_some hp]
    | none =>
      have hne : host ≠ hostPort p.host p.port := by
        rintro rfl
        simp [hp] at hlookup
      rw [verify_of_none hp]
      exact (AList.lookup_insert_ne hne).trans hlookup

theorem lookup_run {s : KnownHosts} (h : Synced s) {host key : String} (hlookup : s.hosts.lookup host = some key)
    (es : List HostEvent) : (run HostEvent.step s es).hosts.lookup host = some key := by
  have hinv : Synced (run HostEvent.step s es) ∧ (run HostEvent.step s es).hosts.lookup host = some key :=
    run_of_step (I := fun s => Synced s ∧ s.hosts.lookup host = some key)
      (fun s e hs => ⟨synced_step s e hs.1, lookup_step hs.1 hs.2 e⟩) ⟨h, hlookup⟩
  exact hinv.2

/-- The key an acceptance leaves saved. -/
theorem lookup_of_accepts {s : KnownHosts} {p : Presented} {order : IterationOrder} (h : accepts s p order = true) :
    ∃ key, (s.verify order p.host p.port p.key).2.hosts.lookup (hostPort p.host p.port) = some key ∧
      savedBlob key = p.key.base64 := by
  unfold accepts at h
  cases hlookup : s.hosts.lookup (hostPort p.host p.port) with
  | some key =>
    rw [verify_of_some hlookup] at h ⊢
    exact ⟨key, hlookup, by simpa using h⟩
  | none =>
    rw [verify_of_none hlookup]
    exact ⟨_, AList.lookup_insert _, savedBlob_accepted p.isKey⟩

theorem host_keys_pinned (file : Option String) (before later : List HostEvent) :
    let s := run HostEvent.step (load file) before
    let s' := run HostEvent.step s later
    (∀ p order, accepts s p order = true →
      let pinned := run HostEvent.step (HostEvent.step s (.verify p order)) later
      ∀ q order', hostPort q.host q.port = hostPort p.host p.port →
        (accepts pinned q order' = true ↔ q.key.base64 = p.key.base64)) ∧
    (∀ host key, s.hosts.lookup host = some key →
      s'.hosts.lookup host = some key ∧ (load s'.file).hosts.lookup host = some key) := by
  intro s s'
  have hs : Synced s := run_of_step synced_step (synced_load file)
  have hs' : Synced s' := run_of_step synced_step hs
  refine ⟨?_, fun host key hlookup => ?_⟩
  · intro p order haccept pinned q order' hhost
    obtain ⟨key, hkey, hblob⟩ := lookup_of_accepts haccept
    have hpinned : pinned.hosts.lookup (hostPort q.host q.port) = some key :=
      hhost ▸ lookup_run (synced_step s (.verify p order) hs) hkey later
    rw [accepts, verify_of_some hpinned, hblob]
    exact beq_iff_eq.trans eq_comm
  · have hlater : s'.hosts.lookup host = some key := lookup_run hs hlookup later
    exact ⟨hlater, (hs'.read host).trans hlater⟩

end Starla.Proof.Controller
