import Mathlib.Data.List.TakeWhile
import ShopValidation.Location
import ShopValidation.Proofs.Text.IntegerValue

/-!
# The text of a location uid

A uid is written as the digit of its kind, a colon and its id. More texts are read than are written:
before the digit there may be a plus sign and any number of zeros. A text that is no uid is refused
for the first thing that is wrong with it: it has no colon, what stands before the first colon is no
code, or what stands after it is not made of digits.
-/

namespace ShopValidation

open Json (decimalValue decimalValue_eq_iff_of_lt_ten digitChar_digitValue)
open Text (IsNumeral)

/-- The digit of a kind. -/
def ElementType.digit : ElementType → Char
  | .node => '1'
  | .relation => '2'
  | .way => '3'

/-- The code of a kind is the value of its digit. -/
theorem ElementType.code_eq_digitValue (kind : ElementType) :
    kind.code = (Text.digitValue kind.digit : Int) := by
  cases kind <;> rfl

/-- A kind has a code exactly when the code stands for it. -/
theorem ElementType.ofCode?_eq_some_iff {code : Int} {kind : ElementType} :
    ofCode? code = some kind ↔ kind.code = code := by
  constructor
  · exact code_of_ofCode?
  · rintro rfl
    exact ofCode?_code kind

/-- An element id is a numeral. -/
theorem isElementId_iff {text : List Char} : isElementId text = true ↔ IsNumeral text := by
  simp [isElementId, IsNumeral]

namespace LocationUid

/-- Whether a text is a code of a kind: its digit after any number of zeros, alone or after a plus
sign. -/
inductive Codes : List Char → ElementType → Prop
  | unsigned (zeros : Nat) (kind : ElementType) :
    Codes (List.replicate zeros '0' ++ [kind.digit]) kind
  | plus (zeros : Nat) (kind : ElementType) :
    Codes ('+' :: (List.replicate zeros '0' ++ [kind.digit])) kind

/-- Whether a text falls into these two parts at its first colon. -/
def SplitsAtColon (text before after : List Char) : Prop :=
  text = before ++ ':' :: after ∧ ':' ∉ before

variable {text before after digits : List Char} {kind : ElementType} {uid : LocationUid}

/-- The parts around the first colon are the ones that a text is split into. -/
theorem SplitsAtColon.splitColon?_eq (h : SplitsAtColon text before after) :
    splitColon? text = some (before, after) := by
  obtain ⟨rfl, hfirst⟩ := h
  have hbefore : ∀ c ∈ before, decide (c ≠ ':') = true := fun c hc =>
    decide_eq_true (ne_of_mem_of_not_mem hc hfirst)
  rw [splitColon?, List.dropWhile_append_of_pos hbefore, List.takeWhile_append_of_pos hbefore]
  simp

/-- A text without a colon is not split. -/
theorem splitColon?_eq_none (h : ':' ∉ text) : splitColon? text = none := by
  have hnone : text.dropWhile (· ≠ ':') = [] :=
    List.dropWhile_eq_nil_iff.mpr fun c hc => decide_eq_true (ne_of_mem_of_not_mem hc h)
  rw [splitColon?, hnone]

/-- A text that has a colon falls into two parts at the first one. -/
theorem not_mem_or_splitsAtColon (text : List Char) :
    ':' ∉ text ∨ ∃ before after, SplitsAtColon text before after := by
  by_cases hcolon : ':' ∈ text
  · exact .inr (List.eq_append_cons_of_mem hcolon)
  · exact .inl hcolon

/-- Digits have the value of the code of a kind when they are its digit after zeros. -/
theorem decimalValue_eq_code_iff (hdigits : ∀ c ∈ digits, c.isDigit = true) :
    kind.code = decimalValue digits ↔
      ∃ zeros, digits = List.replicate zeros '0' ++ [kind.digit] := by
  have hdigit : kind.digit.isDigit = true := by cases kind <;> rfl
  have hpos : 0 < Text.digitValue kind.digit := by cases kind <;> decide
  obtain ⟨hlt, hchar⟩ := digitChar_digitValue hdigit
  have hvalue := decimalValue_eq_iff_of_lt_ten hdigits hpos hlt
  rw [hchar] at hvalue
  rw [kind.code_eq_digitValue, ← hvalue, Int.ofNat_inj, eq_comm]

/-- A text is read as the code of a kind exactly when it is one. -/
theorem readCode?_eq_some_iff : readCode? text = some kind ↔ Codes text kind := by
  have hread : readCode? text = some kind ↔ Text.readInteger .signed16 text = .ok kind.code := by
    rw [readCode?]
    cases Text.readInteger .signed16 text with
    | error => simp [Except.toOption]
    | ok n => exact ElementType.ofCode?_eq_some_iff.trans (by rw [Except.ok.injEq, eq_comm])
  have hwithin : Text.Bounds.signed16.Contains kind.code := by cases kind <;> decide
  rw [hread, Text.readInteger_eq_ok_iff (by decide)]
  constructor
  · rintro ⟨negative, digits, hform, ⟨-, hdigits⟩, -, hvalue, -⟩
    cases hform with
    | unsigned =>
      obtain ⟨zeros, rfl⟩ := (decimalValue_eq_code_iff hdigits).mp hvalue
      exact .unsigned zeros kind
    | plus =>
      obtain ⟨zeros, rfl⟩ := (decimalValue_eq_code_iff hdigits).mp hvalue
      exact .plus zeros kind
    | minus =>
      -- No kind has a code below one.
      have hcode := kind.code_eq_digitValue
      have hpos : 0 < Text.digitValue kind.digit := by cases kind <;> decide
      simp only [Text.signedValue, if_true] at hvalue
      omega
  · intro h
    have hnumeral (zeros : Nat) : IsNumeral (List.replicate zeros '0' ++ [kind.digit]) := by
      refine ⟨by simp, fun c hc => ?_⟩
      rcases List.mem_append.mp hc with hzero | hlast
      · rw [List.eq_of_mem_replicate hzero]
        rfl
      · rw [List.mem_singleton.mp hlast]
        cases kind <;> rfl
    have hvalue (zeros : Nat) := (decimalValue_eq_code_iff (hnumeral zeros).2).mpr ⟨zeros, rfl⟩
    cases h with
    | unsigned zeros =>
      exact ⟨false, _, .unsigned _, hnumeral zeros, by simp, hvalue zeros, hwithin⟩
    | plus zeros => exact ⟨false, _, .plus _, hnumeral zeros, by simp, hvalue zeros, hwithin⟩

/-- A text is read as no code exactly when it is none. -/
theorem readCode?_eq_none_iff : readCode? text = none ↔ ∀ kind, ¬Codes text kind := by
  simp only [Option.eq_none_iff_forall_ne_some, ne_eq, readCode?_eq_some_iff]

/-- A kind and a text make the uid of that kind with that id, and no other. -/
theorem make_eq_ok_iff {id : String} :
    make kind id = .ok uid ↔ uid.kind = kind ∧ uid.id = id := by
  constructor
  · intro h
    unfold make at h
    split at h <;> cases h
    exact ⟨rfl, rfl⟩
  · rintro ⟨rfl, rfl⟩
    exact make_kind_id uid

/-- A text that is no numeral makes no uid. -/
theorem make_eq_error_iff {id : String} {error : LocationError} :
    make kind id = .error error ↔ ¬IsNumeral id.toList ∧ error = .notNumeric id := by
  rw [← isElementId_iff]
  by_cases hid : isElementId id.toList = true
  · simp [make, hid]
  · simp [make, hid, eq_comm]

/-- A text without a colon is refused for that. -/
theorem parse_of_not_mem {text : String} (h : ':' ∉ text.toList) :
    parse text = .error (.missingColon text) := by
  rw [parse, splitColon?_eq_none h]

/-- A text without a code before its first colon is refused for that, whatever stands after it. -/
theorem parse_of_not_codes {text : String} (hsplit : SplitsAtColon text.toList before after)
    (h : ∀ kind, ¬Codes before kind) : parse text = .error (.badTypeCode text) := by
  simp only [parse, hsplit.splitColon?_eq, readCode?_eq_none_iff.mpr h]

/-- After a code and a colon the id is judged. -/
theorem parse_of_codes {text : String} (hsplit : SplitsAtColon text.toList before after)
    (h : Codes before kind) : parse text = make kind (String.ofList after) := by
  simp only [parse, hsplit.splitColon?_eq, readCode?_eq_some_iff.mpr h]

/-- A text is read as a uid exactly when it is a code of the kind, a colon and the id. -/
theorem parse_eq_ok_iff {text : String} :
    parse text = .ok uid ↔
      ∃ code, SplitsAtColon text.toList code uid.id.toList ∧ Codes code uid.kind := by
  constructor
  · intro h
    rcases not_mem_or_splitsAtColon text.toList with hnone | ⟨code, id, hsplit⟩
    · rw [parse_of_not_mem hnone] at h
      cases h
    · by_cases hcode : ∃ kind, Codes code kind
      · obtain ⟨kind, hcode⟩ := hcode
        rw [parse_of_codes hsplit hcode, make_eq_ok_iff] at h
        obtain ⟨rfl, hid⟩ := h
        rw [hid, String.toList_ofList]
        exact ⟨code, hsplit, hcode⟩
      · rw [parse_of_not_codes hsplit (not_exists.mp hcode)] at h
        cases h
  · rintro ⟨code, hsplit, hcode⟩
    rw [parse_of_codes hsplit hcode, String.ofList_toList, make_kind_id]

/-- Why a text is refused: the colon is looked for first, then the code is judged, and the id last. -/
theorem parse_eq_error_iff {text : String} {error : LocationError} :
    parse text = .error error ↔
      (':' ∉ text.toList ∧ error = .missingColon text) ∨
      ∃ code id, SplitsAtColon text.toList code id ∧
        ((∀ kind, ¬Codes code kind) ∧ error = .badTypeCode text ∨
          (∃ kind, Codes code kind) ∧ ¬IsNumeral id ∧ error = .notNumeric (String.ofList id)) := by
  constructor
  · intro h
    rcases not_mem_or_splitsAtColon text.toList with hnone | ⟨code, id, hsplit⟩
    · rw [parse_of_not_mem hnone] at h
      exact .inl ⟨hnone, (Except.error.inj h).symm⟩
    · refine .inr ⟨code, id, hsplit, ?_⟩
      by_cases hcode : ∃ kind, Codes code kind
      · obtain ⟨kind, hkind⟩ := hcode
        rw [parse_of_codes hsplit hkind, make_eq_error_iff, String.toList_ofList] at h
        exact .inr ⟨⟨kind, hkind⟩, h⟩
      · rw [parse_of_not_codes hsplit (not_exists.mp hcode)] at h
        exact .inl ⟨not_exists.mp hcode, (Except.error.inj h).symm⟩
  · rintro (⟨hnone, rfl⟩ | ⟨code, id, hsplit, ⟨hcode, rfl⟩ | ⟨⟨kind, hcode⟩, hid, rfl⟩⟩)
    · exact parse_of_not_mem hnone
    · exact parse_of_not_codes hsplit hcode
    · rw [parse_of_codes hsplit hcode, make_eq_error_iff, String.toList_ofList]
      exact ⟨hid, rfl⟩

/-- A uid is written as the digit of its kind, a colon and its id. -/
theorem toList_render (uid : LocationUid) :
    uid.render.toList = uid.kind.digit :: ':' :: uid.id.toList := by
  have hcode : (toString uid.kind.code).toList = [uid.kind.digit] := by cases uid.kind <;> rfl
  rw [render, String.toList_append, String.toList_append, hcode]
  rfl

/-- The text of a uid is read as that uid. -/
@[simp] theorem parse_render (uid : LocationUid) : parse uid.render = .ok uid := by
  refine parse_eq_ok_iff.mpr ⟨[uid.kind.digit], ⟨toList_render uid, ?_⟩, .unsigned 0 uid.kind⟩
  cases uid.kind <;> decide

/-- Uids with the same text are the same. -/
theorem render_inj {a b : LocationUid} : a.render = b.render ↔ a = b := by
  constructor
  · intro h
    have hparse := parse_render a
    rw [h, parse_render] at hparse
    exact (Except.ok.inj hparse).symm
  · exact congrArg render

/-- A uid is read from the texts that are a code of its kind, a colon and its id, and some uid from
every text of that form. It is written in one way only, with the digit of its kind alone, and read
back from that, so that two texts are read as the same uid exactly when they are written in the same
way again, and writing what was read changes nothing the second time. Any other text is refused for
the first of three reasons that applies. -/
theorem text_exact :
    (∀ (text : String) (uid : LocationUid), parse text = .ok uid ↔
      ∃ code, SplitsAtColon text.toList code uid.id.toList ∧ Codes code uid.kind) ∧
    (∀ text : String, (∃ uid, parse text = .ok uid) ↔
      ∃ code id kind, SplitsAtColon text.toList code id ∧ Codes code kind ∧ IsNumeral id) ∧
    (∀ uid : LocationUid, uid.render.toList = uid.kind.digit :: ':' :: uid.id.toList ∧
      parse uid.render = .ok uid) ∧
    (∀ (a b : String) (u v : LocationUid), parse a = .ok u → parse b = .ok v →
      (u = v ↔ u.render = v.render)) ∧
    (∀ (text : String) (uid : LocationUid), parse text = .ok uid →
      (parse uid.render).map render = .ok uid.render) ∧
    ∀ (text : String) (error : LocationError), parse text = .error error ↔
      (':' ∉ text.toList ∧ error = .missingColon text) ∨
      ∃ code id, SplitsAtColon text.toList code id ∧
        ((∀ kind, ¬Codes code kind) ∧ error = .badTypeCode text ∨
          (∃ kind, Codes code kind) ∧ ¬IsNumeral id ∧ error = .notNumeric (String.ofList id)) := by
  refine ⟨fun text uid => parse_eq_ok_iff, fun text => ?_,
    fun uid => ⟨toList_render uid, parse_render uid⟩, fun a b u v _ _ => render_inj.symm,
    fun text uid _ => ?_, fun text error => parse_eq_error_iff⟩
  · constructor
    · rintro ⟨uid, huid⟩
      obtain ⟨code, hsplit, hcode⟩ := parse_eq_ok_iff.mp huid
      exact ⟨code, uid.id.toList, uid.kind, hsplit, hcode, isElementId_iff.mp uid.isElementId_id⟩
    · rintro ⟨code, id, kind, hsplit, hcode, hid⟩
      have hid : isElementId (String.ofList id).toList = true := by
        rwa [String.toList_ofList, isElementId_iff]
      refine ⟨⟨kind, String.ofList id, hid⟩, parse_eq_ok_iff.mpr ⟨code, ?_, hcode⟩⟩
      rwa [String.toList_ofList]
  · rw [parse_render]
    rfl

example : parse "+0003:007" = .ok ⟨.way, "007", by decide⟩ := by decide

end LocationUid

end ShopValidation
