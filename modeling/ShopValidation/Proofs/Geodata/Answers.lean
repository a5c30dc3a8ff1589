import ShopValidation.Proofs.Geodata.Elements

/-!
# Answers, element by element

A body lists elements, and it is read as soon as each of them can be kept, whatever else they are: the
answer has what each of them gives, in their order. So the answer to two lists one after the other is
the two answers one after the other, and to put another element in the place of one changes what that
one gave and nothing else.
-/

namespace ShopValidation

open Json

namespace Response

/-- Whether a body is a JSON text with a list of elements: as its only field of that name, or as the
only item of an array. -/
inductive Lists (body : String) (items : List Value) : Prop
  | field {fields : List (Option String × Value)} (hparse : Value.parse? body = some (.object fields))
    (hnames : ∀ field ∈ fields, field.1.isSome = true)
    (honly : fields.filter (·.1 = some "elements") = [(some "elements", .array items)])
  | alone (hparse : Value.parse? body = some (.array [.array items]))

/-- Whether a body carries a list of elements that can be kept. -/
structure Carries (body : String) (items : List Value) : Prop where
  lists : Lists body items
  kept : ∀ item ∈ items, item.Keepable elementDepth

/-- The elements that a value lists, whether or not they can be kept. -/
def listed? : Value → Option (List Value)
  | .object fields =>
    match Value.namedFields? ["elements"] fields with
    | some [some (.array items)] => some items
    | _ => none
  | .array [.array items] => some items
  | _ => none

variable {body : String} {items : List Value} {value : Value} {found : List Resolved}

/-- The only field of a name is found where all the names are texts. -/
theorem namedFields?_singleton_iff {name : String} {fields : List (Option String × Value)} :
    Value.namedFields? [name] fields = some [some value] ↔
      (∀ field ∈ fields, field.1.isSome = true) ∧
        fields.filter (·.1 = some name) = [(some name, value)] := by
  rw [Value.namedFields?]
  constructor
  · intro h
    obtain ⟨hnames, hfound⟩ := Option.ite_none_right_eq_some.mp h
    refine ⟨List.all_eq_true.mp hnames, ?_⟩
    simp only [List.mapM_cons, List.mapM_nil, Option.bind_eq_bind, Option.bind_eq_some_iff,
      Option.pure_def, Option.some.injEq, List.cons.injEq] at hfound
    obtain ⟨_, hfield, _, rfl, rfl, -⟩ := hfound
    split at hfield
    case h_1 => cases hfield
    case h_2 field honly =>
      have hname : field.1 = some name := by
        have hmem : field ∈ fields.filter (·.1 = some name) := by
          rw [honly]
          exact List.mem_singleton_self field
        simpa using (List.mem_filter.mp hmem).2
      obtain rfl := Option.some.inj (Option.some.inj hfield)
      rw [honly, ← hname]
    case h_3 => cases hfield
  · rintro ⟨hnames, honly⟩
    rw [if_pos (List.all_eq_true.mpr hnames)]
    simp [honly]

/-- A body lists the elements that are found in its value. -/
theorem lists_iff : Lists body items ↔ (Value.parse? body).bind listed? = some items := by
  rw [Option.bind_eq_some_iff]
  constructor
  · rintro (⟨hparse, hnames, honly⟩ | hparse)
    · refine ⟨_, hparse, ?_⟩
      rw [listed?, namedFields?_singleton_iff.mpr ⟨hnames, honly⟩]
    · exact ⟨_, hparse, rfl⟩
  · rintro ⟨value, hparse, hlisted⟩
    unfold listed? at hlisted
    split at hlisted
    case h_1 fields =>
      split at hlisted
      case h_1 found hfield =>
        obtain rfl := Option.some.inj hlisted
        obtain ⟨hnames, honly⟩ := namedFields?_singleton_iff.mp hfield
        exact .field hparse hnames honly
      case h_2 => cases hlisted
    case h_2 found =>
      obtain rfl := Option.some.inj hlisted
      exact .alone hparse
    case h_3 => cases hlisted

/-- A body lists one list of elements at most. -/
theorem Lists.unique (h : Lists body items) {others : List Value} (hothers : Lists body others) :
    items = others :=
  Option.some.inj ((lists_iff.mp h).symm.trans (lists_iff.mp hothers))

/-- The elements of a body are the ones that it lists, if they are kept. -/
theorem elements_of_listed? (h : listed? value = some items) :
    elements value = keepElements (.array items) := by
  unfold listed? at h
  split at h
  case h_1 fields =>
    split at h
    case h_1 found hfield =>
      obtain rfl := Option.some.inj h
      rw [elements, hfield]
    case h_2 => cases h
  case h_2 found =>
    obtain rfl := Option.some.inj h
    rfl
  case h_3 => cases h

/-- Elements are found where there is a list and each of its items can be kept. -/
theorem keepElements_eq_ok (h : keepElements value = .ok items) :
    value = .array items ∧ items.all (Value.isKeepable elementDepth) = true := by
  unfold keepElements at h
  split at h
  case h_2 found =>
    split at h
    case isTrue hall =>
      cases h
      exact ⟨rfl, hall⟩
    case isFalse => cases h
  case h_1 | h_3 => cases h

/-- Elements that are found are listed, and can be kept. -/
theorem listed?_of_elements (h : elements value = .ok items) :
    listed? value = some items ∧ items.all (Value.isKeepable elementDepth) = true := by
  unfold elements at h
  split at h
  case h_1 fields =>
    split at h
    case h_1 found hfield =>
      obtain ⟨rfl, hall⟩ := keepElements_eq_ok h
      exact ⟨by rw [listed?, hfield], hall⟩
    case h_2 | h_3 => cases h
  case h_2 found =>
    obtain ⟨rfl, hall⟩ := keepElements_eq_ok h
    exact ⟨rfl, hall⟩
  case h_3 => cases h

/-- A body that lists elements is read as what they say, one after another, if each of them can be
kept, and is refused if not. -/
theorem parse_of_lists (h : Lists body items) :
    parse body = if items.all (Value.isKeepable elementDepth) then .ok (ofElements items)
      else .error (.malformed .notReadable) := by
  obtain ⟨value, hparse, hlisted⟩ := Option.bind_eq_some_iff.mp (lists_iff.mp h)
  rw [parse, hparse]
  simp only [elements_of_listed? hlisted, keepElements]
  split <;> rfl

/-- A body that carries elements is read as what they say, one after another. -/
theorem parse_of_carries (h : Carries body items) : parse body = .ok (ofElements items) := by
  have hall : items.all (Value.isKeepable elementDepth) = true :=
    List.all_eq_true.mpr fun item hitem => Value.isKeepable_iff.mpr (h.kept item hitem)
  rw [parse_of_lists h.lists, if_pos hall]

/-- A body that lists an element that cannot be kept is refused. -/
theorem parse_of_not_keepable (h : Lists body items) {item : Value} (hitem : item ∈ items)
    (hbad : ¬item.Keepable elementDepth) : parse body = .error (.malformed .notReadable) := by
  have hall : items.all (Value.isKeepable elementDepth) ≠ true := fun hall =>
    hbad (Value.isKeepable_iff.mp (List.all_eq_true.mp hall item hitem))
  rw [parse_of_lists h, if_neg hall]

/-- A body that is read carries elements. -/
theorem exists_carries (h : (parse body).isOk = true) : ∃ items, Carries body items := by
  unfold parse at h
  split at h
  case h_1 => cases h
  case h_2 value hparse =>
    cases helements : elements value with
    | error error => simp [helements, Except.map, Except.isOk, Except.toBool] at h
    | ok items =>
      obtain ⟨hlisted, hall⟩ := listed?_of_elements helements
      exact ⟨items, lists_iff.mpr (Option.bind_eq_some_iff.mpr ⟨value, hparse, hlisted⟩),
        fun item hitem => Value.isKeepable_iff.mp (List.all_eq_true.mp hall item hitem)⟩

/-- Another element in the place of one changes what that one gave. -/
theorem ofElements_at (before after : List Value) (item : Value) :
    ofElements (before ++ item :: after) =
      ofElements before ++ (Element.resolved? item).toList ++ ofElements after := by
  have hitem : ofElements [item] = (Element.resolved? item).toList := by
    rw [ofElements, List.filterMap_cons, List.filterMap_nil]
    cases Element.resolved? item <;> rfl
  rw [List.append_cons, ofElements_append, ofElements_append, hitem]

/-- A body with a text among its elements, and a way with a position of its own and a centre. More
digits than fit fifty-three bits are not read as the nearest number. -/
def unreadableAndWay : String :=
  "\x7b\"elements\":[\"not an object\"," ++
    "\x7b\"type\":\"way\",\"id\":30,\"lat\":1,\"lon\":1," ++
      "\"center\":\x7b\"lat\":51.248178375505404,\"lon\":2.35\x7d\x7d]\x7d"

end Response

end ShopValidation
