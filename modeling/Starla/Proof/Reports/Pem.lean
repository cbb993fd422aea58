import Starla.Framework.Base64
import Starla.Framework.Chunks
import Starla.Framework.JsonStrings
import Starla.Framework.Lines
import Starla.Impl.Reports.Tls
import Starla.Proof.Reports.Tls

/-!
# The bytes that a line carries

* `readPem` : the certificate of a PEM text, its lines of 64 characters at most.
* `certificates_carried` : the certificates of an answer are read from its report.
-/

namespace Starla.Proof.Reports.Pem

open Starla.Framework Starla.Framework.JsonText Starla.Impl.Reports Starla.Impl.Measurements Starla.Proof.Reports

/-! ## PEM -/

def BEGIN : List Char := "-----BEGIN CERTIFICATE-----".toList
def END : List Char := "-----END CERTIFICATE-----".toList

/-- A certificate between its two boundary lines. -/
def readPem (text : List Char) : Option (List UInt8) :=
  match lines text with
  | [] => none
  | first :: rest =>
    let body := rest.dropLast
    if first = BEGIN ∧ rest.getLast? = some END ∧ ∀ l ∈ body, 0 < l.length ∧ l.length ≤ 64 then
      decodeBase64 body.flatten
    else none

/-- What a certificate's text stands for. -/
def pemOf (der : List UInt8) : List Char :=
  BEGIN ++ '\n' :: (((base64 der).toChunks 64).flatMap (· ++ ['\n']) ++ END)

theorem decodes_of_plain {cs : List Char} (h : ∀ c ∈ cs, isPlain c = true) : Decodes cs cs := by
  induction cs with
  | nil => exact decodes_nil
  | cons c cs ih =>
    rw [List.forall_mem_cons] at h
    exact (decodes_plain h.1).append (ih h.2)

theorem decodes_newline : Decodes ['\\', 'n'] ['\n'] := fun _ _ => rfl

theorem decodes_lines {ls : List (List Char)} (h : ∀ l ∈ ls, ∀ c ∈ l, isPlain c = true) :
    Decodes (String.join (ls.map fun l => String.ofList l ++ "\\n")).toList (ls.flatMap (· ++ ['\n'])) := by
  induction ls with
  | nil => exact decodes_nil
  | cons l ls ih =>
    rw [List.forall_mem_cons] at h
    rw [List.map_cons, String.join_cons, String.toList_append, String.toList_append, String.toList_ofList,
      List.flatMap_cons]
    exact ((decodes_of_plain h.1).append decodes_newline).append (ih h.2)

theorem isPlain_chunks (der : List UInt8) : ∀ l ∈ (base64 der).toChunks 64, ∀ c ∈ l, isPlain c = true :=
  Tls.forall_mem_toChunks fun _ hc => (isPlain_of_mem_base64 hc).1

theorem decodes_pemText (der : List UInt8) : Decodes (Tls.pemText der).toList (pemOf der) := by
  have hbegin : Decodes BEGIN BEGIN := decodes_of_plain (List.all_eq_true.mp rfl)
  have hend : Decodes END END := decodes_of_plain (List.all_eq_true.mp rfl)
  have htext : (Tls.pemText der).toList = BEGIN ++ ['\\', 'n'] ++
      (String.join (((base64 der).toChunks 64).map fun l => String.ofList l ++ "\\n")).toList ++ END := by
    unfold Tls.pemText
    rw [String.toList_append, String.toList_append]
    rfl
  rw [htext]
  have hwhole := ((hbegin.append decodes_newline).append (decodes_lines (isPlain_chunks der))).append hend
  have heq : pemOf der = BEGIN ++ ['\n'] ++ ((base64 der).toChunks 64).flatMap (· ++ ['\n']) ++ END := by
    rw [pemOf, List.append_assoc, List.append_assoc]
    rfl
  rw [heq]
  exact hwhole

theorem lines_flatMap {ls : List (List Char)} (h : ∀ l ∈ ls, ∀ c ∈ l, isPlain c = true) (rest : List Char) :
    lines (ls.flatMap (· ++ ['\n']) ++ rest) = ls ++ lines rest := by
  induction ls with
  | nil => rfl
  | cons l ls ih =>
    rw [List.forall_mem_cons] at h
    have hplain {c : Char} (hc : isPlain c = false) : c ∉ l := by
      intro hmem
      rw [h.1 c hmem] at hc
      cases hc
    have hcr : stripCr l = l := by
      unfold stripCr
      apply if_neg
      intro hlast
      exact hplain (by decide) (List.mem_of_getLast? hlast)
    rw [List.flatMap_cons, List.append_assoc, List.append_assoc]
    show lines (l ++ '\n' :: (ls.flatMap (· ++ ['\n']) ++ rest)) = _
    rw [lines_append (hplain (by decide)), hcr, ih h.2]
    rfl

/-- A certificate is read from its text. -/
theorem readPem_pemOf (der : List UInt8) : readPem (pemOf der) = some der := by
  have hlines : lines (pemOf der) = BEGIN :: ((base64 der).toChunks 64 ++ [END]) := by
    rw [pemOf, lines_append (by decide), lines_flatMap (isPlain_chunks der)]
    rfl
  unfold readPem
  rw [hlines]
  show (if BEGIN = BEGIN ∧ ((base64 der).toChunks 64 ++ [END]).getLast? = some END ∧
    ∀ l ∈ ((base64 der).toChunks 64 ++ [END]).dropLast, 0 < l.length ∧ l.length ≤ 64 then _ else none) = _
  rw [List.getLast?_concat, List.dropLast_concat, if_pos ⟨rfl, rfl, fun l hl => length_of_mem_toChunks hl⟩,
    flatten_toChunks]
  exact decodeBase64_base64 der

/-! ## Certificates -/

/-- The certificates of an array of PEM texts. -/
def readCerts (array : String) : Option (List (List UInt8)) :=
  (decodeStrings array.toList).bind fun texts => texts.mapM readPem

theorem mapM_readPem (certs : List (List UInt8)) : (certs.map pemOf).mapM readPem = some certs := by
  induction certs with
  | nil => rfl
  | cons der certs ih =>
    rw [List.map_cons, List.mapM_cons, readPem_pemOf, ih]
    rfl

theorem readCerts_array (certs : List (List UInt8)) :
    readCerts ("[ " ++ ", ".intercalate (certs.map fun der => "\"" ++ Tls.pemText der ++ "\"") ++ " ]") = some certs := by
  have hdecodes : List.Forall₂ (fun s text => Decodes s.toList text) (certs.map Tls.pemText) (certs.map pemOf) := by
    rw [List.forall₂_map_left_iff, List.forall₂_map_right_iff]
    exact List.forall₂_same.mpr fun der _ => decodes_pemText der
  have hstrings := decodeStrings_intercalate hdecodes
  rw [List.map_map] at hstrings
  have hread := congrArg (fun texts => texts.bind fun texts => texts.mapM readPem) hstrings
  exact hread.trans (mapM_readPem certs)

/-- The report of an answer ends with its cipher. -/
theorem headBody_cipher (env : Tls.Envelope) (now : Int) (head : Tls.Head) (lts : LtsText) :
    ∃ before, Tls.headBody env now head lts =
      before ++ ", \"server_cipher\": \"" ++ ("0x" ++ hexText 4 head.cipher.toNat) ++ "\"" := by
  have htail : ∃ before, Tls.headTail env head =
      before ++ ", \"server_cipher\": \"" ++ ("0x" ++ hexText 4 head.cipher.toNat) ++ "\"" := ⟨_, rfl⟩
  obtain ⟨before, htail⟩ := htail
  obtain ⟨first, hfirst⟩ : ∃ first, Tls.headBody env now head lts = first ++ Tls.headTail env head := ⟨_, rfl⟩
  rw [hfirst, htail]
  exact ⟨first ++ before, by simp only [String.append_assoc]⟩

/-- The certificates of an answer are read from the array that its report ends with. -/
theorem certificates_carried (env : Tls.Envelope) (met : Tls.Met) (dst : IpAddr) (lts : LtsText)
    (certs : List (List UInt8)) (h : met.answer.event = .certs certs) :
    ∃ before array, Tls.answerBody env met dst lts = before ++ ", \"server_cipher\": \"" ++
        ("0x" ++ hexText 4 met.answer.cipher.toNat) ++ "\", \"cert\":" ++ array ∧ readCerts array = some certs := by
  have hbody : Tls.answerBody env met dst lts = Tls.headBody env met.answer.now
      ⟨met.answer.version, dst, met.answer.src, met.answer.ttc, met.answer.rt, met.answer.cipher⟩ lts ++
        Tls.certsSuffix certs := by
    unfold Tls.answerBody
    dsimp only
    rw [h]
  obtain ⟨before, hhead⟩ := headBody_cipher env met.answer.now
    ⟨met.answer.version, dst, met.answer.src, met.answer.ttc, met.answer.rt, met.answer.cipher⟩ lts
  have hkey (text array : String) : text ++ "\"" ++ (", \"cert\":" ++ array) = text ++ "\", \"cert\":" ++ array := by
    have hjoined : "\", \"cert\":" = "\"" ++ ", \"cert\":" := rfl
    rw [hjoined, String.append_assoc, String.append_assoc, String.append_assoc]
  rw [hbody, hhead, Tls.certsSuffix, hkey]
  exact ⟨before, _, rfl, readCerts_array certs⟩

end Starla.Proof.Reports.Pem
