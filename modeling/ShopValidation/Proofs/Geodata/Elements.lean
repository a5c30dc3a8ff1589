import ShopValidation.Geodata.Response
import ShopValidation.Proofs.Json.Keeping
import ShopValidation.Proofs.Location.UidText

/-!
# Element by element

A body that is accepted carries a list of elements, and the answer has what each of them gives, in
their order. What an element gives is up to its own fields: it gives nothing where a field is of a
wrong type or one that is needed is not there, and otherwise the location that its kind and id name
and the position of its centre, or its own where it has no centre.
-/

namespace ShopValidation

open Json
open Text (IsNumeral)

/-- The natural number of a literal without sign, fraction and exponent, however large. -/
def Json.Number.natural? (literal : Number) : Option Nat :=
  if literal.integral && !literal.negative then some (decimalValue literal.whole.val) else none

namespace Json.Value

/-- Whether a value is a string. -/
def IsText (value : Value) : Prop := ∃ content, value = .text content

/-- Whether a value is a number. -/
def IsNumber (value : Value) : Prop := ∃ literal, value = .number literal

instance : DecidablePred IsText
  | .text content => .isTrue ⟨content, rfl⟩
  | .null | .bool _ | .number _ | .array _ | .object _ => .isFalse fun ⟨_, h⟩ => nomatch h

instance : DecidablePred IsNumber
  | .number literal => .isTrue ⟨literal, rfl⟩
  | .null | .bool _ | .text _ | .array _ | .object _ => .isFalse fun ⟨_, h⟩ => nomatch h

instance : DecidablePred (· = Value.null)
  | .null => .isTrue rfl
  | .bool _ | .number _ | .text _ | .array _ | .object _ => .isFalse fun h => nomatch h

/-- Whether a field is missing, null or of a type. -/
def IsOptional (hasType : Value → Prop) (field : Option Value) : Prop :=
  ∀ value, field = some value → value = .null ∨ hasType value

instance (hasType : Value → Prop) [DecidablePred hasType] : DecidablePred (IsOptional hasType)
  | none => .isTrue fun _ h => nomatch h
  | some value =>
    decidable_of_iff (value = .null ∨ hasType value)
      ⟨fun h _ hvalue => Option.some.inj hvalue ▸ h, fun h => h value rfl⟩

/-- Whether a value can be kept at some depth of a body. -/
def Kept (value : Value) : Prop := ∃ depth, value.Keepable depth

variable {α : Type} {read : Value → Option α} {field : Option Value} {value : Value}
  {fields : List (Option String × Value)} {hasType : Value → Prop} {x : Float}

/-- The last field of a name is one of the fields. -/
theorem mem_of_lastField? {name : String} (h : lastField? name fields = some value) :
    (some name, value) ∈ fields := by
  obtain ⟨found, hfound, rfl⟩ := Option.map_eq_some_iff.mp h
  have hname : found.1 = some name := by simpa using List.find?_some hfound
  rw [← hname]
  exact List.mem_reverse.mp (List.mem_of_find?_eq_some hfound)

/-- The fields of an object that is kept are kept. -/
theorem Kept.lastField? (h : Kept (.object fields)) {name : String}
    (hfield : Value.lastField? name fields = some value) : Kept value := by
  obtain ⟨depth, hdepth⟩ := h
  cases depth with
  | zero => exact nomatch hdepth.legible
  | succ depth =>
    exact ⟨depth, (keepable_object_iff.mp hdepth _ (mem_of_lastField? hfield)).2⟩

/-- A literal that is kept stands for a floating-point number. -/
theorem Kept.exists_denotes {literal : Number} (h : Kept (.number literal)) :
    ∃ x, literal.Denotes x := by
  obtain ⟨depth, hdepth⟩ := h
  exact hdepth.numbers literal .number

/-- A value is read as a floating-point number exactly when it is a literal that stands for it. -/
theorem toFloat?_eq_some_iff :
    toFloat? value = some x ↔ ∃ literal, value = .number literal ∧ literal.Denotes x := by
  cases value with
  | number literal =>
    rw [toFloat?, Option.ite_none_right_eq_some, Option.some.injEq, ← Number.denotes_iff]
    exact ⟨fun h => ⟨literal, rfl, h⟩, fun ⟨_, hsame, h⟩ => Value.number.inj hsame ▸ h⟩
  | null | bool | text | array | object => exact ⟨nofun, nofun⟩

/-- A field that is there and is not null is read as a value of its type. -/
theorem optional_some_of_ne_null (hnull : value ≠ .null) :
    optional read (some value) = (read value).map some := by
  cases value with
  | null => exact absurd rfl hnull
  | _ => rfl

/-- An optional field has a value when it is there, is not null, and is read as that value. -/
theorem optional_eq_some_some_iff {x : α} :
    optional read field = some (some x) ↔
      ∃ value, field = some value ∧ value ≠ .null ∧ read value = some x := by
  constructor
  · intro h
    unfold optional at h
    split at h
    case h_1 | h_2 => cases h
    case h_3 value hnull =>
      obtain ⟨y, hy, hxy⟩ := Option.map_eq_some_iff.mp h
      obtain rfl := Option.some.inj hxy
      exact ⟨value, rfl, fun hvalue => hnull (by rw [hvalue]), hy⟩
  · rintro ⟨value, rfl, hnull, hvalue⟩
    rw [optional_some_of_ne_null hnull, hvalue, Option.map_some]

/-- An optional field is read exactly when it is of its type, where a value that is there can be read
exactly when it is of that type. -/
theorem exists_optional_iff
    (htype : ∀ value, field = some value → ∀ x, read value = some x → hasType value)
    (hread : ∀ value, field = some value → hasType value → ∃ x, read value = some x) :
    (∃ x, optional read field = some x) ↔ IsOptional hasType field := by
  constructor
  · rintro ⟨x, h⟩ value rfl
    by_cases hnull : value = .null
    · exact .inl hnull
    · rw [optional_some_of_ne_null hnull] at h
      obtain ⟨y, hy, -⟩ := Option.map_eq_some_iff.mp h
      exact .inr (htype value rfl y hy)
  · intro h
    cases field with
    | none => exact ⟨none, rfl⟩
    | some value =>
      obtain rfl | hvalue := h value rfl
      · exact ⟨none, rfl⟩
      · by_cases hnull : value = .null
        · exact ⟨none, by rw [hnull]; rfl⟩
        · obtain ⟨x, hx⟩ := hread value rfl hvalue
          exact ⟨some x, by rw [optional_some_of_ne_null hnull, hx, Option.map_some]⟩

end Json.Value

/-- The kind with the name of a kind is that kind. -/
@[simp] theorem ElementType.ofName?_name (kind : ElementType) : ofName? kind.name = some kind := by
  cases kind <;> decide

/-- A kind has a name exactly when the name stands for it. -/
theorem ElementType.ofName?_eq_some_iff {name : String} {kind : ElementType} :
    ofName? name = some kind ↔ kind.name = name := by
  constructor
  · intro h
    simpa using List.find?_some h
  · rintro rfl
    exact ofName?_name kind

/-- A kind and a text make a uid when they are its kind and its digits. -/
theorem LocationUid.toOption_make_eq_some_iff {kind : ElementType} {text : String}
    {uid : LocationUid} : (make kind text).toOption = some uid ↔ kind = uid.kind ∧ text = uid.id := by
  constructor
  · intro h
    unfold make at h
    split at h <;> cases h
    exact ⟨rfl, rfl⟩
  · rintro ⟨rfl, rfl⟩
    rw [make_kind_id]
    rfl

namespace Element

open Json.Value

/-- Whether a value is the id that a text is: a literal with neither sign nor fraction nor exponent,
of sixty-four bits, in the digits that its number is written with; or the text as a string. -/
inductive DenotesId : Value → String → Prop
  | number {literal : Number} {n : Nat} (hnatural : literal.natural? = some n)
    (hbits : n < 18446744073709551616) : DenotesId (.number literal) (toString n)
  | text (content : String) : DenotesId (.text (some content)) content

/-- Whether a field is there and is a literal that stands for a floating-point number. -/
def NumberAt (name : String) (fields : List (Option String × Value)) (x : Float) : Prop :=
  ∃ literal, lastField? name fields = some (.number literal) ∧ literal.Denotes x

/-- Whether latitude and longitude, as far as they are there, are numbers. -/
structure PositionTyped (fields : List (Option String × Value)) : Prop where
  lat : IsOptional IsNumber (lastField? "lat" fields)
  lon : IsOptional IsNumber (lastField? "lon" fields)

instance : DecidablePred PositionTyped := fun fields =>
  decidable_of_iff
    (IsOptional IsNumber (lastField? "lat" fields) ∧ IsOptional IsNumber (lastField? "lon" fields))
    ⟨fun h => ⟨h.1, h.2⟩, fun h => ⟨h.lat, h.lon⟩⟩

/-- Whether a value is an object whose latitude and longitude are of their type. -/
def IsCenter (value : Value) : Prop := ∃ inner, value = .object inner ∧ PositionTyped inner

instance : DecidablePred IsCenter
  | .object inner =>
    decidable_of_iff (PositionTyped inner)
      ⟨fun h => ⟨inner, rfl, h⟩, fun ⟨_, hvalue, h⟩ => Value.object.inj hvalue ▸ h⟩
  | .null | .bool _ | .number _ | .text _ | .array _ => .isFalse fun ⟨_, h, _⟩ => nomatch h

/-- Whether the known fields of an element, as far as they are there, are of their types. An id may
be of any. -/
structure WellTyped (fields : List (Option String × Value)) : Prop where
  kind : IsOptional IsText (lastField? "type" fields)
  own : PositionTyped fields
  center : IsOptional IsCenter (lastField? "center" fields)

instance : DecidablePred WellTyped := fun fields =>
  decidable_of_iff
    (IsOptional IsText (lastField? "type" fields) ∧ PositionTyped fields ∧
      IsOptional IsCenter (lastField? "center" fields))
    ⟨fun h => ⟨h.1, h.2.1, h.2.2⟩, fun h => ⟨h.kind, h.own, h.center⟩⟩

/-- The fields that the position is taken from: those of the centre, if there is one. -/
def positionFields (fields : List (Option String × Value)) : List (Option String × Value) :=
  match lastField? "center" fields with
  | some (.object inner) => inner
  | _ => fields

/-- Whether an element says of a location that it lies at a position. -/
structure Gives (fields : List (Option String × Value)) (entry : Resolved) : Prop where
  wellTyped : WellTyped fields
  kind : lastField? "type" fields = some (.text (some entry.uid.kind.name))
  id : ∃ value, lastField? "id" fields = some value ∧ DenotesId value entry.uid.id
  lat : NumberAt "lat" (positionFields fields) entry.lat
  lon : NumberAt "lon" (positionFields fields) entry.lon

/-- Whether an element says where some location lies. -/
structure IsUsable (fields : List (Option String × Value)) : Prop where
  wellTyped : WellTyped fields
  kind : ∃ kind : ElementType, lastField? "type" fields = some (.text (some kind.name))
  id : ∃ value text, lastField? "id" fields = some value ∧ DenotesId value text ∧
    IsNumeral text.toList
  lat : ∃ x, NumberAt "lat" (positionFields fields) x
  lon : ∃ x, NumberAt "lon" (positionFields fields) x

variable {fields inner : List (Option String × Value)} {element : Element} {entry : Resolved}
  {name text : String} {value : Value} {x y : Float}

/-- A natural number is within sixty-four bits or no integer that an id may be. -/
theorem toInt?_of_natural? {literal : Number} {n : Nat} (h : literal.natural? = some n) :
    literal.toInt? .unsigned64 = if n < 18446744073709551616 then some (n : Int) else none := by
  obtain ⟨hform, hdigits⟩ := Option.ite_none_right_eq_some.mp h
  obtain rfl := Option.some.inj hdigits
  simp only [Bool.and_eq_true, Bool.not_eq_true'] at hform
  by_cases hbits : decimalValue literal.whole.val < 18446744073709551616
  · have hupper : (decimalValue literal.whole.val : Int) ≤ 18446744073709551615 := by omega
    simp [Number.toInt?, Text.Bounds.unsigned64, hform, hbits, hupper]
  · have hupper : ¬(decimalValue literal.whole.val : Int) ≤ 18446744073709551615 := by omega
    simp [Number.toInt?, Text.Bounds.unsigned64, hform, hbits, hupper]

/-- A literal that is no natural number is no integer that an id may be. -/
theorem toInt?_of_natural?_eq_none {literal : Number} (h : literal.natural? = none) :
    literal.toInt? .unsigned64 = none := by
  have hform : literal.integral = true → literal.negative = true := by
    simpa [Number.natural?] using h
  refine if_neg fun hwithin => ?_
  simp only [Text.Bounds.unsigned64, Bool.and_eq_true, Bool.not_eq_true'] at hwithin
  obtain ⟨⟨⟨hintegral, hzero⟩, hlower⟩, -⟩ := hwithin
  -- Of the negative literals only minus zero is not below the bounds, and that is no integer.
  simp only [hform hintegral, Bool.true_and, decide_eq_false_iff_not, decide_eq_true_eq,
    if_true] at hzero hlower
  omega

/-- The text of an id is the text that it denotes. -/
theorem idText?_eq_some_iff : idText? value = some text ↔ DenotesId value text := by
  constructor
  · intro h
    cases value with
    | number literal =>
      cases hnatural : literal.natural? with
      | none => simp [idText?, toInt?_of_natural?_eq_none hnatural] at h
      | some n =>
        rw [idText?, toInt?_of_natural? hnatural] at h
        obtain ⟨_, hint, rfl⟩ := Option.map_eq_some_iff.mp h
        obtain ⟨hbits, hsame⟩ := Option.ite_none_right_eq_some.mp hint
        obtain rfl := Option.some.inj hsame
        exact .number hnatural hbits
    | text content =>
      obtain rfl : content = some text := h
      exact .text text
    | null | bool | array | object => cases h
  · intro h
    cases h with
    | number hnatural hbits => rw [idText?, toInt?_of_natural? hnatural, if_pos hbits]; rfl
    | text => rfl

/-- A number that is optional is read exactly when it is of its type. -/
theorem exists_toFloat?_iff (h : Kept (.object fields)) :
    (∃ x, optional toFloat? (lastField? name fields) = some x) ↔
      IsOptional IsNumber (lastField? name fields) := by
  refine exists_optional_iff (fun value _ x hx => ?_) fun value hfield hnumber => ?_
  · obtain ⟨literal, rfl, -⟩ := toFloat?_eq_some_iff.mp hx
    exact ⟨literal, rfl⟩
  · obtain ⟨literal, rfl⟩ := hnumber
    obtain ⟨x, hx⟩ := (h.lastField? hfield).exists_denotes
    exact ⟨x, toFloat?_eq_some_iff.mpr ⟨literal, rfl, hx⟩⟩

/-- A number that is optional has a value when it is there. -/
theorem optional_toFloat?_iff :
    optional toFloat? (lastField? name fields) = some (some x) ↔ NumberAt name fields x := by
  rw [optional_eq_some_some_iff]
  constructor
  · rintro ⟨value, hfield, -, hread⟩
    obtain ⟨literal, rfl, hx⟩ := toFloat?_eq_some_iff.mp hread
    exact ⟨literal, hfield, hx⟩
  · rintro ⟨literal, hfield, hx⟩
    exact ⟨_, hfield, by simp, toFloat?_eq_some_iff.mpr ⟨literal, rfl, hx⟩⟩

/-- A text that is optional is read exactly when it is of its type. -/
theorem exists_toText?_iff (h : Kept (.object fields)) :
    (∃ text, optional toText? (lastField? name fields) = some text) ↔
      IsOptional IsText (lastField? name fields) := by
  refine exists_optional_iff (fun value _ text htext => ?_) fun value hfield htype => ?_
  · cases value with
    | text content => exact ⟨content, rfl⟩
    | null | bool | number | array | object => cases htext
  · obtain ⟨content, rfl⟩ := htype
    obtain ⟨depth, hdepth⟩ := h.lastField? hfield
    have hlegible := hdepth.legible
    rw [isLegible] at hlegible
    exact Option.isSome_iff_exists.mp hlegible

/-- A text that is optional has a value when it is there. -/
theorem optional_toText?_iff :
    optional toText? (lastField? name fields) = some (some text) ↔
      lastField? name fields = some (.text (some text)) := by
  rw [optional_eq_some_some_iff]
  constructor
  · rintro ⟨value, hfield, -, htext⟩
    cases value with
    | text content =>
      obtain rfl : content = some text := htext
      exact hfield
    | null | bool | number | array | object => cases htext
  · intro hfield
    exact ⟨_, hfield, by simp, rfl⟩

/-- A centre is read in its two parts. -/
theorem readCenter?_object_iff {center : Option Float × Option Float} :
    readCenter? (.object inner) = some center ↔
      optional toFloat? (lastField? "lat" inner) = some center.1 ∧
        optional toFloat? (lastField? "lon" inner) = some center.2 := by
  simp only [readCenter?, Option.bind_eq_bind, Option.bind_eq_some_iff, Option.pure_def,
    Option.some.injEq]
  grind

/-- An object is read as a centre exactly when its position is of its type. -/
theorem exists_readCenter?_iff (h : Kept (.object inner)) :
    (∃ center, readCenter? (.object inner) = some center) ↔ PositionTyped inner := by
  constructor
  · rintro ⟨center, hcenter⟩
    obtain ⟨hlat, hlon⟩ := readCenter?_object_iff.mp hcenter
    exact ⟨(exists_toFloat?_iff h).mp ⟨_, hlat⟩, (exists_toFloat?_iff h).mp ⟨_, hlon⟩⟩
  · rintro ⟨hlat, hlon⟩
    obtain ⟨lat, hlat⟩ := (exists_toFloat?_iff h).mpr hlat
    obtain ⟨lon, hlon⟩ := (exists_toFloat?_iff h).mpr hlon
    exact ⟨(lat, lon), readCenter?_object_iff.mpr ⟨hlat, hlon⟩⟩

/-- A centre that is optional and no array is read exactly when it is of its type. -/
theorem exists_optional_readCenter?_iff (h : Kept (.object fields))
    (harray : ∀ parts, lastField? name fields ≠ some (.array parts)) :
    (∃ center, optional readCenter? (lastField? name fields) = some center) ↔
      IsOptional IsCenter (lastField? name fields) := by
  refine exists_optional_iff (fun value hfield center hcenter => ?_) fun value hfield htype => ?_
  · cases value with
    | object inner =>
      exact ⟨inner, rfl, (exists_readCenter?_iff (h.lastField? hfield)).mp ⟨center, hcenter⟩⟩
    | array parts => exact absurd hfield (harray parts)
    | null | bool | number | text => cases hcenter
  · obtain ⟨inner, rfl, hinner⟩ := htype
    exact (exists_readCenter?_iff (h.lastField? hfield)).mpr hinner

/-- Every id can be read. -/
theorem exists_optional_some (field : Option Value) : ∃ id, optional some field = some id := by
  cases field with
  | none => exact ⟨none, rfl⟩
  | some value => cases value <;> exact ⟨_, rfl⟩

/-- An element is read in its five parts. -/
theorem ofJson?_object_iff :
    ofJson? (.object fields) = some element ↔
      optional toText? (lastField? "type" fields) = some element.kind ∧
      optional some (lastField? "id" fields) = some element.id ∧
      optional toFloat? (lastField? "lat" fields) = some element.lat ∧
      optional toFloat? (lastField? "lon" fields) = some element.lon ∧
      optional readCenter? (lastField? "center" fields) = some element.center := by
  simp only [ofJson?, readParts?, Option.bind_eq_bind, Option.bind_eq_some_iff, Option.pure_def,
    Option.some.injEq]
  constructor
  · rintro ⟨kind, hkind, id, hid, lat, hlat, lon, hlon, center, hcenter, rfl⟩
    exact ⟨hkind, hid, hlat, hlon, hcenter⟩
  · rintro ⟨hkind, hid, hlat, hlon, hcenter⟩
    exact ⟨_, hkind, _, hid, _, hlat, _, hlon, _, hcenter, rfl⟩

/-- An element without an array for its centre is read exactly when its fields are of their types. -/
theorem exists_ofJson?_iff (h : Kept (.object fields))
    (harray : ∀ parts, lastField? "center" fields ≠ some (.array parts)) :
    (∃ element, ofJson? (.object fields) = some element) ↔ WellTyped fields := by
  constructor
  · rintro ⟨element, hread⟩
    obtain ⟨hkind, -, hlat, hlon, hcenter⟩ := ofJson?_object_iff.mp hread
    exact {
      kind := (exists_toText?_iff h).mp ⟨_, hkind⟩
      own := ⟨(exists_toFloat?_iff h).mp ⟨_, hlat⟩, (exists_toFloat?_iff h).mp ⟨_, hlon⟩⟩
      center := (exists_optional_readCenter?_iff h harray).mp ⟨_, hcenter⟩ }
  · rintro ⟨hkind, ⟨hlat, hlon⟩, hcenter⟩
    obtain ⟨kind, hkind⟩ := (exists_toText?_iff h).mpr hkind
    obtain ⟨id, hid⟩ := exists_optional_some (lastField? "id" fields)
    obtain ⟨lat, hlat⟩ := (exists_toFloat?_iff h).mpr hlat
    obtain ⟨lon, hlon⟩ := (exists_toFloat?_iff h).mpr hlon
    obtain ⟨center, hcenter⟩ := (exists_optional_readCenter?_iff h harray).mpr hcenter
    exact ⟨⟨kind, id, lat, lon, center⟩,
      ofJson?_object_iff.mpr ⟨hkind, hid, hlat, hlon, hcenter⟩⟩

/-- The uid of an element is the one that its kind and its id name. -/
theorem uid?_iff_of_ofJson? (hread : ofJson? (.object fields) = some element) {uid : LocationUid} :
    element.uid? = some uid ↔
      lastField? "type" fields = some (.text (some uid.kind.name)) ∧
        ∃ value, lastField? "id" fields = some value ∧ DenotesId value uid.id := by
  obtain ⟨hkind, hid, -⟩ := ofJson?_object_iff.mp hread
  have hidText : (∃ value, lastField? "id" fields = some value ∧ DenotesId value uid.id) ↔
      ∃ value, element.id = some value ∧ idText? value = some uid.id := by
    constructor
    · rintro ⟨value, hfield, hdenotes⟩
      refine ⟨value, ?_, idText?_eq_some_iff.mpr hdenotes⟩
      have hnull : value ≠ .null := by
        rintro rfl
        cases hdenotes
      have hsome := optional_eq_some_some_iff.mpr ⟨value, hfield, hnull, rfl⟩
      exact Option.some.inj (hid.symm.trans hsome)
    · rintro ⟨value, hvalue, htext⟩
      rw [hvalue] at hid
      obtain ⟨_, hfield, -, hsame⟩ := optional_eq_some_some_iff.mp hid
      obtain rfl := Option.some.inj hsame
      exact ⟨_, hfield, idText?_eq_some_iff.mp htext⟩
  have hname : lastField? "type" fields = some (.text (some uid.kind.name)) ↔
      element.kind = some uid.kind.name := by
    rw [← optional_toText?_iff, hkind, Option.some.injEq]
  rw [hidText, hname]
  simp only [uid?, Option.bind_eq_bind, Option.bind_eq_some_iff, ElementType.ofName?_eq_some_iff,
    LocationUid.toOption_make_eq_some_iff]
  constructor
  · rintro ⟨_, hkind, _, rfl, value, hvalue, _, htext, rfl, rfl⟩
    exact ⟨hkind, value, hvalue, htext⟩
  · rintro ⟨hkind, value, hvalue, htext⟩
    exact ⟨_, hkind, _, rfl, value, hvalue, _, htext, rfl, rfl⟩

/-- The position of an element is the one that its centre has, or it has itself. -/
theorem position_iff_of_ofJson?
    (harray : ∀ parts, lastField? "center" fields ≠ some (.array parts))
    (hread : ofJson? (.object fields) = some element) :
    element.position = (some x, some y) ↔
      NumberAt "lat" (positionFields fields) x ∧ NumberAt "lon" (positionFields fields) y := by
  obtain ⟨-, -, hlat, hlon, hcenter⟩ := ofJson?_object_iff.mp hread
  have hown : (element.lat, element.lon) = (some x, some y) ↔
      NumberAt "lat" fields x ∧ NumberAt "lon" fields y := by
    rw [Prod.mk.injEq, ← optional_toFloat?_iff, ← optional_toFloat?_iff, hlat, hlon,
      Option.some.injEq, Option.some.injEq]
  unfold position positionFields
  cases hfield : lastField? "center" fields with
  | none =>
    rw [hfield] at hcenter
    have hnone : none = element.center := Option.some.inj hcenter
    rw [← hnone]
    exact hown
  | some value =>
    rw [hfield] at hcenter
    cases value with
    | null =>
      have hnone : none = element.center := Option.some.inj hcenter
      rw [← hnone]
      exact hown
    | object inner =>
      obtain ⟨center, hread, hsome⟩ := Option.map_eq_some_iff.mp hcenter
      obtain ⟨hlat, hlon⟩ := readCenter?_object_iff.mp hread
      rw [← hsome, Option.getD_some, ← optional_toFloat?_iff,
        ← optional_toFloat?_iff, hlat, hlon, Option.some.injEq, Option.some.injEq,
        Prod.ext_iff]
    | array parts => exact absurd hfield (harray parts)
    | bool | number | text => cases hcenter

/-- What an element gives is what it says, if it has no array for its centre. -/
theorem resolved?_object_iff (h : Kept (.object fields))
    (harray : ∀ parts, lastField? "center" fields ≠ some (.array parts)) :
    resolved? (.object fields) = some entry ↔ Gives fields entry := by
  have hentry : resolved? (.object fields) = some entry ↔
      ∃ element, ofJson? (.object fields) = some element ∧ element.uid? = some entry.uid ∧
        element.position = (some entry.lat, some entry.lon) := by
    simp only [resolved?, Option.bind_eq_bind, Option.bind_eq_some_iff]
    constructor
    · rintro ⟨element, hread, uid, huid, hposition⟩
      split at hposition
      case h_1 lat lon heq =>
        obtain rfl := Option.some.inj hposition
        exact ⟨element, hread, huid, heq⟩
      case h_2 => cases hposition
    · rintro ⟨element, hread, huid, hposition⟩
      exact ⟨element, hread, entry.uid, huid, by rw [hposition]; rfl⟩
  rw [hentry]
  constructor
  · rintro ⟨element, hread, huid, hposition⟩
    obtain ⟨hkind, hid⟩ := (uid?_iff_of_ofJson? hread).mp huid
    obtain ⟨hlat, hlon⟩ := (position_iff_of_ofJson? harray hread).mp hposition
    exact ⟨(exists_ofJson?_iff h harray).mp ⟨element, hread⟩, hkind, hid, hlat, hlon⟩
  · rintro ⟨htyped, hkind, hid, hlat, hlon⟩
    obtain ⟨element, hread⟩ := (exists_ofJson?_iff h harray).mpr htyped
    exact ⟨element, hread, (uid?_iff_of_ofJson? hread).mpr ⟨hkind, hid⟩,
      (position_iff_of_ofJson? harray hread).mpr ⟨hlat, hlon⟩⟩

/-- An element says something exactly when it is usable. -/
theorem exists_gives_iff : (∃ entry, Gives fields entry) ↔ IsUsable fields := by
  constructor
  · rintro ⟨entry, htyped, hkind, ⟨value, hid, hdenotes⟩, hlat, hlon⟩
    exact ⟨htyped, ⟨_, hkind⟩, ⟨value, _, hid, hdenotes,
      isElementId_iff.mp entry.uid.isElementId_id⟩, ⟨_, hlat⟩, ⟨_, hlon⟩⟩
  · rintro ⟨htyped, ⟨kind, hkind⟩, ⟨value, text, hid, hdenotes, hdigits⟩, ⟨x, hlat⟩, ⟨y, hlon⟩⟩
    exact ⟨⟨⟨kind, text, isElementId_iff.mpr hdigits⟩, x, y⟩, htyped, hkind,
      ⟨value, hid, hdenotes⟩, hlat, hlon⟩

end Element

end ShopValidation
