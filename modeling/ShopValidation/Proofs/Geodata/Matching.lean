import ShopValidation.Proofs.Geodata.Answers
import ShopValidation.Proofs.Json.Overflow

/-!
# Finding a location in an answer

Answers name elements by number, and locations are known by their digits. The two meet where the
digits are what the number is written with: without leading zeros, and within sixty-four bits. Every
such location is found in each answer that describes it and is read, and no other location ever is by
its number. An answer is read as a whole or not at all, and a number that is too large, be it the id
of the location itself, is enough for it to be refused.
-/

namespace ShopValidation

open Json

namespace Json.Value

/-- Whether a field is there and is of a type. -/
def IsThere (hasType : Value → Prop) (field : Option Value) : Prop :=
  ∃ value, field = some value ∧ hasType value

instance (hasType : Value → Prop) [DecidablePred hasType] : DecidablePred (IsThere hasType)
  | none => .isFalse fun ⟨_, h, _⟩ => nomatch h
  | some value =>
    decidable_of_iff (hasType value)
      ⟨fun h => ⟨value, rfl, h⟩, fun ⟨_, hvalue, h⟩ => Option.some.inj hvalue ▸ h⟩

/-- Whether a value is a string with this text. -/
def IsName (name : String) (value : Value) : Prop := value = .text (some name)

instance (name : String) : DecidablePred (IsName name)
  | .text content =>
    decidable_of_iff (content = some name) ⟨congrArg Value.text, fun h => Value.text.inj h⟩
  | .null | .bool _ | .number _ | .array _ | .object _ => .isFalse fun h => nomatch h

/-- Whether a value is a natural number, written without sign, fraction and exponent. -/
def IsNatural (n : Nat) (value : Value) : Prop :=
  ∃ literal, value = .number literal ∧ literal.natural? = some n

instance (n : Nat) : DecidablePred (IsNatural n)
  | .number literal =>
    decidable_of_iff (literal.natural? = some n)
      ⟨fun h => ⟨literal, rfl, h⟩, fun ⟨_, hvalue, h⟩ => Value.number.inj hvalue ▸ h⟩
  | .null | .bool _ | .text _ | .array _ | .object _ => .isFalse fun ⟨_, h, _⟩ => nomatch h

end Json.Value

namespace LocationUid

/-- The number that the digits of a uid denote. -/
def number (uid : LocationUid) : Nat := decimalValue uid.id.toList

/-- Whether the digits of a uid are what a number of sixty-four bits is written with. -/
def IsPlain (uid : LocationUid) : Prop :=
  NoLeadingZero uid.id.toList ∧ uid.number ≤ 18446744073709551615

instance (uid : LocationUid) : Decidable uid.IsPlain := inferInstanceAs (Decidable (_ ∧ _))

/-- A uid has digits, and nothing else. -/
theorem id_ne_nil (uid : LocationUid) :
    uid.id.toList ≠ [] ∧ ∀ c ∈ uid.id.toList, c.isDigit = true := by
  simpa [isElementId] using uid.isElementId_id

/-- The digits of a uid are what its number is written with when they have no leading zero. -/
theorem toString_number_iff (uid : LocationUid) :
    toString uid.number = uid.id ↔ NoLeadingZero uid.id.toList := by
  obtain ⟨hsome, hdigits⟩ := uid.id_ne_nil
  rw [← toDigits_decimalValue_iff hsome hdigits, Nat.toString_eq_ofList_toDigits, number]
  constructor
  · intro h
    simpa using congrArg String.toList h
  · intro h
    rw [h, String.ofList_toList]

end LocationUid

namespace Element

open Json.Value

/-- Whether an element describes a location: its known fields are of their types, it has the kind of
the location and its number, and a full position. -/
structure Describes (fields : List (Option String × Value)) (uid : LocationUid) : Prop where
  wellTyped : WellTyped fields
  kind : IsThere (IsName uid.kind.name) (lastField? "type" fields)
  id : IsThere (IsNatural uid.number) (lastField? "id" fields)
  lat : IsThere IsNumber (lastField? "lat" (positionFields fields))
  lon : IsThere IsNumber (lastField? "lon" (positionFields fields))

instance (fields : List (Option String × Value)) (uid : LocationUid) :
    Decidable (Describes fields uid) :=
  decidable_of_iff
    (WellTyped fields ∧ IsThere (IsName uid.kind.name) (lastField? "type" fields) ∧
      IsThere (IsNatural uid.number) (lastField? "id" fields) ∧
      IsThere IsNumber (lastField? "lat" (positionFields fields)) ∧
      IsThere IsNumber (lastField? "lon" (positionFields fields)))
    ⟨fun ⟨htyped, hkind, hid, hlat, hlon⟩ => ⟨htyped, hkind, hid, hlat, hlon⟩,
      fun ⟨htyped, hkind, hid, hlat, hlon⟩ => ⟨htyped, hkind, hid, hlat, hlon⟩⟩

variable {fields : List (Option String × Value)} {uid : LocationUid}

/-- The centre of an element whose fields are of their types is no array. -/
theorem WellTyped.center_ne_array (h : WellTyped fields) (parts : List Value) :
    lastField? "center" fields ≠ some (.array parts) := by
  intro harray
  obtain hnull | ⟨_, hinner, -⟩ := h.center _ harray
  · cases hnull
  · cases hinner

/-- An id that is the number of a location denotes its digits exactly when the location is plain. -/
theorem denotesId_iff_isPlain {value : Value} (h : value.IsNatural uid.number) :
    DenotesId value uid.id ↔ uid.IsPlain := by
  obtain ⟨literal, rfl, hnatural⟩ := h
  have hid : DenotesId (.number literal) uid.id ↔
      uid.number < 18446744073709551616 ∧ toString uid.number = uid.id := by
    rw [← idText?_eq_some_iff, idText?, toInt?_of_natural? hnatural]
    by_cases hbits : uid.number < 18446744073709551616
    · rw [if_pos hbits, Option.map_some, Option.some.injEq, and_iff_right hbits]
      rfl
    · rw [if_neg hbits]
      exact iff_of_false (by simp) fun h => hbits h.1
  rw [hid, LocationUid.toString_number_iff, and_comm, Nat.lt_succ_iff]
  rfl

/-- The position fields of an element that is kept are kept. -/
theorem kept_positionFields (h : Kept (.object fields)) : Kept (.object (positionFields fields)) := by
  unfold positionFields
  split
  case h_1 inner hcenter => exact h.lastField? hcenter
  case h_2 => exact h

/-- A number among the fields of an object that is kept stands for a floating-point number. -/
theorem exists_numberAt (h : Kept (.object fields)) {name : String}
    (hnumber : IsThere IsNumber (lastField? name fields)) : ∃ x, NumberAt name fields x := by
  obtain ⟨_, hfield, literal, rfl⟩ := hnumber
  obtain ⟨x, hx⟩ := (h.lastField? hfield).exists_denotes
  exact ⟨x, literal, hfield, hx⟩

/-- An element that describes a location and is kept is taken to lie there exactly when the location
is plain. -/
theorem exists_resolved?_iff_isPlain (h : Describes fields uid) (hkept : Kept (.object fields)) :
    (∃ entry, resolved? (.object fields) = some entry ∧ entry.uid = uid) ↔ uid.IsPlain := by
  have hgives {entry : Resolved} : resolved? (.object fields) = some entry ↔ Gives fields entry :=
    resolved?_object_iff hkept h.wellTyped.center_ne_array
  obtain ⟨value, hvalue, hnatural⟩ := h.id
  rw [← denotesId_iff_isPlain hnatural]
  constructor
  · rintro ⟨entry, hentry, rfl⟩
    obtain ⟨other, hother, hdenotes⟩ := (hgives.mp hentry).id
    obtain rfl := Option.some.inj (hvalue.symm.trans hother)
    exact hdenotes
  · intro hdenotes
    obtain ⟨x, hlat⟩ := exists_numberAt (kept_positionFields hkept) h.lat
    obtain ⟨y, hlon⟩ := exists_numberAt (kept_positionFields hkept) h.lon
    obtain ⟨_, hkind, rfl⟩ := h.kind
    exact ⟨⟨uid, x, y⟩, hgives.mpr ⟨h.wellTyped, hkind, ⟨value, hvalue, hdenotes⟩, hlat, hlon⟩, rfl⟩

/-- An element with too many digits for its id cannot be kept. -/
theorem Describes.not_keepable (h : Describes fields uid) (hmany : 10 ^ 309 ≤ uid.number)
    {depth : Nat} : ¬(Value.object fields).Keepable depth := by
  intro hkept
  obtain ⟨_, hfield, literal, rfl, hnatural⟩ := h.id
  obtain ⟨x, hx⟩ := hkept.numbers literal (.field (mem_of_lastField? hfield) .number)
  obtain ⟨hform, hdigits⟩ := Option.ite_none_right_eq_some.mp hnatural
  simp only [Bool.and_eq_true, Bool.not_eq_true'] at hform
  have hinfinite := Number.isFinite_of_many hform.2 hform.1 (Option.some.inj hdigits ▸ hmany)
  rw [(Number.denotes_iff.mp hx).1] at hinfinite
  cases hinfinite

end Element

/-- The last position of a location is there when some entry is for the location. -/
theorem isSome_lastPosition? {found : List Resolved} {uid : LocationUid} {entry : Resolved}
    (hmem : entry ∈ found) (huid : entry.uid = uid) : (lastPosition? found uid).isSome = true := by
  simp only [lastPosition?, Option.isSome_map, List.find?_isSome, List.mem_reverse]
  exact ⟨entry, hmem, by simpa using huid⟩

namespace Response

/-- A body that lists an element that describes a location is read if its elements can be kept: then
that element is taken to lie there exactly when the location is plain, and if it is, the answer has an
entry for it, so that it has a position to be applied. If some element cannot be kept, the body is
refused, as always where the number of the location has more than three hundred and nine digits. -/
theorem answered_of_describes {body : String} {items : List Value}
    {fields : List (Option String × Value)} {uid : LocationUid} (hbody : Lists body items)
    (hitem : .object fields ∈ items) (hdescribes : Element.Describes fields uid) :
    ((∀ item ∈ items, item.Keepable elementDepth) →
      ∃ found, parse body = .ok found ∧
        ((∃ entry, Element.resolved? (.object fields) = some entry ∧ entry.uid = uid) ↔
          uid.IsPlain) ∧
        (uid.IsPlain →
          (∃ entry ∈ found, entry.uid = uid) ∧ (lastPosition? found uid).isSome = true)) ∧
    ((∃ item ∈ items, ¬item.Keepable elementDepth) →
      parse body = .error (.malformed .notReadable)) ∧
    (10 ^ 309 ≤ uid.number → parse body = .error (.malformed .notReadable)) := by
  refine ⟨fun hkept => ?_, fun ⟨item, hitem, hbad⟩ => parse_of_not_keepable hbody hitem hbad,
    fun hmany => parse_of_not_keepable hbody hitem (hdescribes.not_keepable hmany)⟩
  have hplain := Element.exists_resolved?_iff_isPlain hdescribes ⟨_, hkept _ hitem⟩
  refine ⟨ofElements items, parse_of_carries ⟨hbody, hkept⟩, hplain, fun h => ?_⟩
  obtain ⟨entry, hentry, huid⟩ := hplain.mpr h
  have hmem : entry ∈ ofElements items := List.mem_filterMap.mpr ⟨_, hitem, hentry⟩
  exact ⟨⟨entry, hmem, huid⟩, isSome_lastPosition? hmem huid⟩

/-- Whether a body lists an element that describes a location. -/
def Describes (body : String) (uid : LocationUid) : Prop :=
  ∃ items fields, Lists body items ∧ .object fields ∈ items ∧ Element.Describes fields uid

/-- Whether a value is an element that describes a location. -/
def isDescription (uid : LocationUid) : Value → Bool
  | .object fields => Element.Describes fields uid
  | _ => false

/-- A body describes a location exactly when one of the elements that are found in it does. -/
theorem describes_iff {body : String} {uid : LocationUid} :
    (((Value.parse? body).bind listed?).any (·.any (isDescription uid))) = true ↔
      Describes body uid := by
  rw [Option.any_eq_true]
  constructor
  · rintro ⟨items, hlists, h⟩
    obtain ⟨item, hitem, hdescribes⟩ := List.any_eq_true.mp h
    cases item with
    | object fields =>
      exact ⟨items, fields, lists_iff.mpr hlists, hitem, of_decide_eq_true hdescribes⟩
    | null | bool | number | text | array => cases hdescribes
  · rintro ⟨items, fields, hlists, hitem, hdescribes⟩
    exact ⟨items, lists_iff.mp hlists,
      List.any_eq_true.mpr ⟨_, hitem, decide_eq_true hdescribes⟩⟩

instance (body : String) (uid : LocationUid) : Decidable (Describes body uid) :=
  decidable_of_iff _ describes_iff

/-- Whether a body is read, and has an entry for a location. -/
def Answers (body : String) (uid : LocationUid) : Prop :=
  ∃ found, parse body = .ok found ∧ ∃ entry ∈ found, entry.uid = uid

/-- A body has an entry for a location exactly when one is found. -/
theorem answers_iff {body : String} {uid : LocationUid} :
    (parse body).toOption.any (·.any (·.uid = uid)) = true ↔ Answers body uid := by
  simp only [Answers, Option.any_eq_true, List.any_eq_true, decide_eq_true_eq]
  cases parse body <;> simp [Except.toOption]

instance (body : String) (uid : LocationUid) : Decidable (Answers body uid) :=
  decidable_of_iff _ answers_iff

/-- A body with one element, by the text of its id. -/
def nodeWithId (id : String) : String :=
  "\x7b\"elements\":[\x7b\"type\":\"node\",\"id\":" ++ id ++ ",\"lat\":51.5,\"lon\":-0.12\x7d]\x7d"

theorem answered_of_describes_seven :
    Describes (nodeWithId "7") ⟨.node, "7", rfl⟩ ∧ Answers (nodeWithId "7") ⟨.node, "7", rfl⟩ := by
  have hseven : Describes (nodeWithId "7") ⟨.node, "7", rfl⟩ := by decide +kernel
  have hread : (parse (nodeWithId "7")).isOk = true := by decide +kernel
  refine ⟨hseven, ?_⟩
  obtain ⟨items, fields, hlists, hitem, hdescribes⟩ := hseven
  obtain ⟨others, hcarries⟩ := exists_carries hread
  obtain rfl := hlists.unique hcarries.lists
  obtain ⟨hanswered, -⟩ := answered_of_describes hlists hitem hdescribes
  obtain ⟨found, hparse, -, hfound⟩ := hanswered hcarries.kept
  exact ⟨found, hparse, (hfound (by decide)).1⟩

/-- Two elements, the second of them with a latitude that is too large. -/
def besideTooLarge : String :=
  "\x7b\"elements\":[\x7b\"type\":\"node\",\"id\":7,\"lat\":51.5,\"lon\":-0.12\x7d," ++
    "\x7b\"type\":\"node\",\"id\":8,\"lat\":1e400,\"lon\":0\x7d]\x7d"

theorem not_answered_of_describes :
    (Describes (nodeWithId "7") ⟨.node, "007", rfl⟩ ∧
      ¬Answers (nodeWithId "7") ⟨.node, "007", rfl⟩) ∧
    (Describes (nodeWithId "18446744073709551616") ⟨.node, "18446744073709551616", rfl⟩ ∧
      ¬Answers (nodeWithId "18446744073709551616") ⟨.node, "18446744073709551616", rfl⟩) ∧
    Describes besideTooLarge ⟨.node, "7", rfl⟩ ∧ ¬Answers besideTooLarge ⟨.node, "7", rfl⟩ := by
  decide +kernel

end Response

end ShopValidation
