import Starla.Framework.JsonFormat
import Starla.Framework.JsonMembers
import Starla.Impl.Reports.Envelope
import Starla.Proof.Results.Format

/-!
# The envelope

What result lines share: the members they start with (`leading_envelope`), and
the texts in them that a JSON string holds as they are.
-/

namespace Starla.Proof.Reports

open Starla.Framework Starla.Framework.JsonText Starla.Impl.Measurements Starla.Impl.Reports Starla.Impl.Results
  Starla.Proof.Results

/-! ## Members -/

def envelopeFields : Fields :=
  [("id", Shape.IsString), ("fw", Shape.IsNumber), ("mver", Shape.IsString), ("lts", Shape.IsNumber)]

def errorFields : Fields := [("error", Shape.IsString)]

/-- The envelope's parts, as they are written and as they are read. -/
theorem envelope_assoc {a i q u v f m x y o z : String} (hq : q = u ++ v) (hm : m = x ++ y) :
    a ++ i ++ q ++ f ++ m ++ o ++ z = a ++ i ++ u ++ (v ++ f ++ x ++ y ++ o) ++ z := by
  subst hq hm
  simp only [String.append_assoc]

theorem leading_envelope (id : Nat) {lts : LtsText} (hlts : IsNumber lts.own.toList) :
    Leading (envelope (toString id) lts) envelopeFields := by
  have hq : "\", \"fw\":" = "\"" ++ ", \"fw\":" := rfl
  have hm : ", \"mver\": \"2.6.4\", \"lts\":" = ", \"mver\": \"2.6.4\"" ++ ", \"lts\":" := rfl
  have hid : Adds .member ("\"id\":\"" ++ toString id ++ "\"") [("id", Shape.IsString)] :=
    .text (fun _ _ => rfl) (plainText_toString id).isContent
  have hfw : Members (", \"fw\":" ++ toString FIRMWARE_VERSION) [("fw", Shape.IsNumber)] :=
    .value (fun _ _ => rfl) rfl (readsAs_number (isNumber_toString _))
  have hmver : Members ", \"mver\": \"2.6.4\"" [("mver", Shape.IsString)] :=
    .literal rfl fun _ _ => rfl
  have hall := (hfw.append hmver).andValue (p := ", \"lts\":") (k := "lts") (fun _ _ => rfl) rfl (readsAs_number hlts)
  rw [envelope, envelope_assoc hq hm]
  exact .of_adds (hid.append hall)

theorem readsAs_errorEntry {error : String} (herror : PlainText error) :
    ReadsAs (errorEntry error) (Shape.ObjectOf errorFields) :=
  readsAs_object (.text (fun _ _ => rfl) herror.isContent)

/-- The time a lookup took, after the target's name. -/
def ttrText (ttr : Option (Fixed 6)) : String := (ttr.map fun ttr => ", \"ttr\":" ++ ttr.text).getD ""

theorem members_ttr (ttr : Option (Fixed 6)) :
    Members (ttrText ttr) (if ttr.isSome then [("ttr", Shape.IsNumber)] else []) :=
  .getD_map fun ttr _ => .value (fun _ _ => rfl) rfl (readsAs_number (isNumber_fixed ttr))

theorem startsMember_ttr (ttr : Option (Fixed 6)) {p : String} (hp : StartsMember p) : StartsMember (ttrText ttr ++ p) := by
  cases ttr with
  | none => exact String.empty_append.symm ▸ hp
  | some ttr =>
    have hname : StartsMember ", \"ttr\":" := ⟨'t', ['t', 'r'], [], rfl, rfl, rfl⟩
    exact hname.append.append

theorem plainText_addrText (addr : Option IpAddr) : PlainText (addrText addr) := by
  cases addr with
  | none => rfl
  | some addr => exact plainText_ipAddr addr

theorem plainText_lookupErrorText (error : LookupError) : PlainText (lookupErrorText error) := by
  cases error <;> decide

end Starla.Proof.Reports
