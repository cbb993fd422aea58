import Mathlib.Data.List.Basic
import Starla.Framework.Bytes
import Starla.Impl.Measurements.DnsName
import Starla.Impl.Measurements.TlsReader

/-!
# The hello of evsslgetcert

`tls/hello.rs` of `starla-measurements`.
-/

namespace Starla.Impl.Measurements.Tls

open Starla.Framework Starla.Impl.Measurements.DnsName

def HS_CLIENT_HELLO : UInt8 := 1

def CIPHERS : List UInt16 :=
  [0x1301, 0x1303, 0x1302, 0xc02b, 0xc02f, 0xcca9, 0xcca8, 0xc02c, 0xc030, 0xc00a, 0xc009, 0xc013,
    0xc014, 0x009c, 0x009d, 0x002f, 0x0035, 0x000a]

def SIG_ALGS : List UInt16 :=
  [0x0403, 0x0503, 0x0603, 0x0804, 0x0805, 0x0806, 0x0401, 0x0501, 0x0601, 0x0203, 0x0201]

def GROUPS : List UInt16 := [0x001d, 0x0017, 0x0018, 0x0019, 0x0100, 0x0101]

/-- The methods after their number. -/
def COMPRESSION : List UInt8 := [2, 1, 0]

def TLS_1_2 : UInt8 × UInt8 := (3, 3)

/-- `(v as u16).to_be_bytes()`. -/
def putU16 (v : Nat) : List UInt8 := beBytes 2 v

def putU16s (vs : List UInt16) : List UInt8 := vs.flatMap fun v => putU16 v.toNat

theorem size_helloRandom (now : UInt32) (random : Vector UInt8 32) :
    (beBytes 4 now.toNat ++ random.toList.drop 4).toArray.size = 32 := by simp

/-- `random` is what the generator gave. -/
def helloRandom (now : UInt32) (random : Vector UInt8 32) : Vector UInt8 32 :=
  ⟨(beBytes 4 now.toNat ++ random.toList.drop 4).toArray, size_helloRandom now random⟩

def extensions (sni : Option String) : List UInt8 :=
  let ext : List UInt8 := match sni with
    | some name =>
      putU16 0 ++ putU16 (2 + 1 + 2 + name.utf8ByteSize) ++ putU16 (1 + 2 + name.utf8ByteSize) ++ [0] ++
        putU16 name.utf8ByteSize ++ asBytes name
    | none => []
  ext ++ putU16 13 ++ putU16 (2 + 2 * SIG_ALGS.length) ++ putU16 (2 * SIG_ALGS.length) ++ putU16s SIG_ALGS ++
    putU16 10 ++ putU16 (2 + 2 * GROUPS.length) ++ putU16 (2 * GROUPS.length) ++ putU16s GROUPS

def helloBody (sni : Option String) (version : UInt8 × UInt8) (random : Vector UInt8 32) : List UInt8 :=
  let ext := extensions sni
  [version.1, version.2] ++ random.toList ++ [0] ++ putU16 (2 * CIPHERS.length) ++ putU16s CIPHERS ++ COMPRESSION ++
    putU16 ext.length ++ ext

def clientHello (sni : Option String) (version : UInt8 × UInt8) (random : Vector UInt8 32) : List UInt8 :=
  let body := helloBody sni version random
  let hs := [HS_CLIENT_HELLO] ++ beBytes 3 body.length ++ body
  (hs.toChunks 0x4000).flatMap fun chunk => [MSG_HANDSHAKE, 3, 0] ++ putU16 chunk.length ++ chunk

end Starla.Impl.Measurements.Tls
