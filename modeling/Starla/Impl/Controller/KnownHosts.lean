import Starla.Framework.Assoc
import Starla.Framework.Lines

/-!
# Known hosts

`KnownHosts` of `starla-controller/src/ssh.rs`: the host keys seen first, in a
map and in a file that is written whole each time the map gains one. A hash map
gives its entries in any order, which is a parameter of the write.
-/

namespace Starla.Impl.Controller

open Starla.Framework

/-- What is read of a server's key: its algorithm and the blob as base64. -/
structure PublicKey where
  algorithm : String
  base64 : String
deriving DecidableEq, Repr

/-- An order to go through the entries of a map in. -/
structure IterationOrder where
  arrange : List (Σ _ : String, String) → List (Σ _ : String, String)
  perm : ∀ es, (arrange es).Perm es

structure KnownHosts where
  hosts : Assoc String String := ∅
  /-- The file's text, once there is a file. -/
  file : Option String := none

def KNOWN_HOSTS_HEADER : String := "# Starla known hosts - do not edit manually"

/-- The host and the key on a line `host:port key_type base64_key`. -/
def hostEntry (line : List Char) : Option (String × String) :=
  let line := trim line
  if line.isEmpty || line.head? == some '#' then none
  else do
    let (hostPort, rest) ← splitOnce ' ' line
    let (keyType, key) ← splitOnce ' ' rest
    some (String.ofList hostPort, String.ofList keyType ++ " " ++ String.ofList key)

namespace KnownHosts

def readEntries (text : String) : List (String × String) := (lines text.toList).filterMap hostEntry

def insertAll (hosts : Assoc String String) (es : List (String × String)) : Assoc String String :=
  es.foldl (fun hosts e => hosts.insert e.1 e.2) hosts

def load (file : Option String) : KnownHosts :=
  ⟨insertAll ∅ ((file.map readEntries).getD []), file⟩

def hostPort (host : String) (port : UInt16) : String := host ++ ":" ++ toString port

/-- The blob of a saved key: RFC 8332 has several algorithms share one. -/
def savedBlob (saved : String) : String :=
  ((words isWhitespace saved.toList)[1]?.map String.ofList).getD ""

def render (order : IterationOrder) (hosts : Assoc String String) : String :=
  String.intercalate "\n" (KNOWN_HOSTS_HEADER ::
    (order.arrange hosts.entries).map fun e => e.1 ++ " " ++ e.2) ++ "\n"

/-- The answer, and what is known after it. A key seen first is saved. -/
def verify (s : KnownHosts) (order : IterationOrder) (host : String) (port : UInt16) (key : PublicKey) :
    Bool × KnownHosts :=
  match s.hosts.lookup (hostPort host port) with
  | some saved => (savedBlob saved == key.base64, s)
  | none =>
    let hosts := s.hosts.insert (hostPort host port) (key.algorithm ++ " " ++ key.base64)
    (true, ⟨hosts, some (render order hosts)⟩)

end KnownHosts

end Starla.Impl.Controller
