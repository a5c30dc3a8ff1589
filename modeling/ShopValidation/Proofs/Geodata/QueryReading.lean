import ShopValidation.Geodata.Query
import ShopValidation.Proofs.Location.UidText

/-!
# Reading a query back

The text of a query says which ids of which kind are asked for, and in which order. A reader that
knows the order of the sections finds them again: a section begins with the name of its kind, and no
text that may stand in its place does. Ids are digits, so the first closing bracket ends a section and
the commas before it are the ones between ids.
-/

namespace ShopValidation.Query

open Text (IsNumeral)

/-- The text before the sections. -/
def header : List Char := "[out:json];(".toList

/-- The text after the sections. -/
def footer : List Char := ");out center;".toList

/-- The text before the ids in the section of a kind. -/
def opening (kind : ElementType) : List Char := kind.name.toList ++ ['(', 'i', 'd', ':']

/-- Read the section of a kind at the front of a text: the ids in it, and the text after it. Where
there is no section, there are no ids. -/
def takeSection (kind : ElementType) (text : List Char) : List (List Char) × List Char :=
  if (opening kind).isPrefixOf text then
    let rest := text.drop (opening kind).length
    ((rest.takeWhile (· ≠ ')')).splitOn ',', (rest.dropWhile (· ≠ ')')).drop 2)
  else ([], text)

/-- Read the sections of kinds at the front of a text, in their order. -/
def takeSections : List ElementType → List Char → List (ElementType × List (List Char))
  | [], _ => []
  | kind :: kinds, text =>
    let (ids, rest) := takeSection kind text
    (kind, ids) :: takeSections kinds rest

/-- The ids of a kind in the text of a query. -/
def readIds (kind : ElementType) (query : String) : List String :=
  match (takeSections kindOrder (query.toList.drop header.length)).lookup kind with
  | some ids => ids.map String.ofList
  | none => []

/-- The text of a query that asks for a number of ids of each kind, without the digits of the ids. -/
def outline (count : ElementType → Nat) : List Char :=
  header ++ kindOrder.flatMap (fun kind => sectionText kind (List.replicate (count kind) [])) ++ footer

variable {kind : ElementType} {kinds : List ElementType} {ids : List (List Char)} {rest : List Char}
  {uids : List LocationUid}

/-- The ids of a query are numerals. -/
theorem isNumeral_of_mem_idsOf {id : List Char} (h : id ∈ idsOf kind uids) : IsNumeral id := by
  obtain ⟨uid, -, rfl⟩ := List.mem_map.mp h
  exact isElementId_iff.mp uid.isElementId_id

/-- A numeral has no character that is not a digit. -/
theorem not_mem_of_isNumeral {id : List Char} (h : IsNumeral id) {c : Char} (hc : c.isDigit = false) :
    c ∉ id := by
  intro hmem
  rw [h.2 c hmem] at hc
  cases hc

/-- Ids with commas in between have no characters but theirs and the commas. -/
theorem eq_comma_or_mem_of_mem_intercalate {c : Char} (h : c ∈ [','].intercalate ids) :
    c = ',' ∨ ∃ id ∈ ids, c ∈ id := by
  induction ids with
  | nil => simp at h
  | cons id ids ih =>
    cases ids with
    | nil => exact .inr ⟨id, List.mem_cons_self, by simpa using h⟩
    | cons next ids =>
      rw [List.intercalate_cons_cons, List.append_assoc] at h
      rcases List.mem_append.mp h with hid | hrest
      · exact .inr ⟨id, List.mem_cons_self, hid⟩
      · rcases List.mem_append.mp hrest with hcomma | hlater
        · exact .inl (List.mem_singleton.mp hcomma)
        · rcases ih hlater with hcomma | ⟨later, hmem, hc⟩
          · exact .inl hcomma
          · exact .inr ⟨later, List.mem_cons_of_mem id hmem, hc⟩

/-- A section without ids is empty. -/
@[simp] theorem sectionText_nil : sectionText kind [] = [] := rfl

/-- A section with ids is the opening of its kind, the ids and a closing. -/
theorem sectionText_of_ne_nil (hsome : ids ≠ []) :
    sectionText kind ids = opening kind ++ ([','].intercalate ids ++ [')', ';']) := by
  simp [sectionText, opening, hsome]

/-- A section with ids begins as its opening does. -/
theorem head?_sectionText (hsome : ids ≠ []) :
    (sectionText kind ids).head? = (opening kind).head? := by
  rw [sectionText_of_ne_nil hsome]
  cases kind <;> rfl

/-- Openings of different kinds begin differently. -/
theorem opening_head?_inj {a b : ElementType} (h : (opening a).head? = (opening b).head?) : a = b := by
  revert h
  cases a <;> cases b <;> decide

/-- A section is read back from the front of a text, unless it is empty and the text goes on with a
section of the same kind. -/
theorem takeSection_sectionText (hids : ∀ id ∈ ids, IsNumeral id)
    (hrest : rest.head? ≠ (opening kind).head?) :
    takeSection kind (sectionText kind ids ++ rest) = (ids, rest) := by
  by_cases hsome : ids = []
  · have hother : ¬opening kind <+: rest := by
      rintro ⟨tail, rfl⟩
      exact hrest (by cases kind <;> rfl)
    rw [hsome, sectionText_nil, List.nil_append, takeSection,
      if_neg (by rwa [List.isPrefixOf_iff_prefix])]
  · have hbracket : ∀ c ∈ [','].intercalate ids, decide (c ≠ ')') = true := by
      intro c hc
      rcases eq_comma_or_mem_of_mem_intercalate hc with rfl | ⟨id, hid, hmem⟩
      · rfl
      · exact decide_eq_true (ne_of_mem_of_not_mem hmem (not_mem_of_isNumeral (hids id hid) rfl))
    have hcomma : ∀ id ∈ ids, ',' ∉ id := fun id hid => not_mem_of_isNumeral (hids id hid) rfl
    have hbody : (opening kind).isPrefixOf (sectionText kind ids ++ rest) = true ∧
        (sectionText kind ids ++ rest).drop (opening kind).length =
          [','].intercalate ids ++ ')' :: ';' :: rest := by
      rw [sectionText_of_ne_nil hsome, List.isPrefixOf_iff_prefix, List.append_assoc,
        List.append_assoc, List.drop_left]
      exact ⟨List.prefix_append _ _, rfl⟩
    rw [takeSection, if_pos hbody.1, hbody.2]
    simp only [List.takeWhile_append_of_pos hbracket, List.dropWhile_append_of_pos hbracket]
    simp [List.splitOn_intercalate ',' hcomma hsome]

/-- Sections do not begin as those of a kind do that none of them is of. -/
theorem head?_sections_ne (ids : ElementType → List (List Char)) (hkind : kind ∉ kinds) :
    (kinds.flatMap (fun kind => sectionText kind (ids kind)) ++ footer).head? ≠
      (opening kind).head? := by
  induction kinds with
  | nil =>
    rw [List.flatMap_nil, List.nil_append]
    cases kind <;> decide
  | cons first kinds ih =>
    rw [List.flatMap_cons]
    by_cases hsome : ids first = []
    · rw [hsome, sectionText_nil, List.nil_append]
      exact ih fun hmem => hkind (List.mem_cons_of_mem first hmem)
    · have hhead : (sectionText first (ids first)).head? = (opening first).head? :=
        head?_sectionText hsome
      rw [List.append_assoc, List.head?_append, hhead]
      intro h
      have hsame : (opening first).head? = (opening kind).head? := by
        rw [← h]
        cases first <;> rfl
      exact hkind (opening_head?_inj hsame ▸ List.mem_cons_self)

/-- All sections are read back, those without ids as well. -/
theorem takeSections_sections (ids : ElementType → List (List Char)) (hnodup : kinds.Nodup)
    (hids : ∀ kind, ∀ id ∈ ids kind, IsNumeral id) :
    takeSections kinds (kinds.flatMap (fun kind => sectionText kind (ids kind)) ++ footer) =
      kinds.map fun kind => (kind, ids kind) := by
  induction kinds with
  | nil => rfl
  | cons kind kinds ih =>
    obtain ⟨hkind, hrest⟩ := List.nodup_cons.mp hnodup
    rw [List.flatMap_cons, List.append_assoc, takeSections,
      takeSection_sectionText (hids kind) (head?_sections_ne ids hkind)]
    simp only [ih hrest, List.map_cons]

/-- A query is the sections of its kinds between the header and the footer. -/
theorem toList_render (uids : List LocationUid) :
    (render uids).toList =
      header ++ (kindOrder.flatMap (fun kind => sectionText kind (idsOf kind uids)) ++ footer) := by
  rw [render, String.toList_ofList]
  unfold chars header footer
  exact List.append_assoc _ _ _

/-- The ids of each kind are read back from the text of a query. -/
theorem readIds_render (kind : ElementType) (uids : List LocationUid) :
    readIds kind (render uids) = (uids.filter (·.kind = kind)).map (·.id) := by
  have hread := takeSections_sections (fun kind => idsOf kind uids)
    (by decide : kindOrder.Nodup) fun kind id => isNumeral_of_mem_idsOf
  have hlookup : (kindOrder.map fun kind => (kind, idsOf kind uids)).lookup kind =
      some (idsOf kind uids) := by
    cases kind <;> rfl
  have hids : (idsOf kind uids).map String.ofList = (uids.filter (·.kind = kind)).map (·.id) := by
    simp [idsOf]
  rw [readIds, toList_render, List.drop_left, hread]
  simp only [hlookup]
  exact hids

example : readIds .node "[out:json];(node(id:7,007);way(id:3););out center;" = ["7", "007"] := by
  decide +kernel

/-- Leaving out a kind of characters that the separator is not of is leaving them out of the parts. -/
theorem filter_intercalate (p : Char → Bool) (separator : List Char)
    (hseparator : separator.filter p = separator) (ids : List (List Char)) :
    (separator.intercalate ids).filter p = separator.intercalate (ids.map (List.filter p)) := by
  induction ids with
  | nil => simp
  | cons id ids ih =>
    cases ids with
    | nil => simp
    | cons next ids =>
      rw [List.map_cons] at ih ⊢
      rw [List.map_cons, List.intercalate_cons_cons, List.intercalate_cons_cons, List.filter_append,
        List.filter_append, hseparator, ih]

/-- A section without its digits is the section of as many empty ids. -/
theorem filter_sectionText (hids : ∀ id ∈ ids, IsNumeral id) :
    (sectionText kind ids).filter (!·.isDigit) =
      sectionText kind (List.replicate ids.length []) := by
  by_cases hsome : ids = []
  · rw [hsome]
    rfl
  · have hopening : (opening kind).filter (!·.isDigit) = opening kind := by cases kind <;> rfl
    have hempty : ids.map (List.filter (!·.isDigit)) = List.replicate ids.length [] := by
      refine List.map_eq_replicate_iff.mpr fun id hid => List.filter_eq_nil_iff.mpr fun c hc => ?_
      simp [(hids id hid).2 c hc]
    have hlength : List.replicate ids.length ([] : List Char) ≠ [] := by simpa using hsome
    rw [sectionText_of_ne_nil hsome, sectionText_of_ne_nil hlength, List.filter_append,
      List.filter_append, hopening, filter_intercalate _ [','] rfl, hempty]
    rfl

/-- A query without its digits is a query for as many empty ids of each kind. -/
theorem filter_render (uids : List LocationUid) :
    (render uids).toList.filter (!·.isDigit) = outline fun kind => uids.countP (·.kind = kind) := by
  have hheader : header.filter (!·.isDigit) = header := by decide
  have hfooter : footer.filter (!·.isDigit) = footer := by decide
  have hsection (kind : ElementType) : (sectionText kind (idsOf kind uids)).filter (!·.isDigit) =
      sectionText kind (List.replicate (uids.countP (·.kind = kind)) []) := by
    rw [filter_sectionText fun id => isNumeral_of_mem_idsOf, idsOf, List.length_map,
      List.countP_eq_length_filter]
  rw [toList_render, List.filter_append, List.filter_append, hheader, hfooter, List.filter_flatMap,
    outline, List.append_assoc]
  simp only [hsection]

/-- The text of a query and the ids of each kind in list order determine each other. The ids, with
their repetitions, are read back from the text. All characters but their digits depend only on how
many there are of each kind, so no id brings a separator, a section or any other text with it. -/
theorem render_unambiguous :
    (∀ u v : List LocationUid, render u = render v ↔
      ∀ kind, (u.filter (·.kind = kind)).map (·.id) = (v.filter (·.kind = kind)).map (·.id)) ∧
    (∀ (uids : List LocationUid) (kind : ElementType),
      readIds kind (render uids) = (uids.filter (·.kind = kind)).map (·.id)) ∧
    ∀ uids : List LocationUid,
      (render uids).toList.filter (!·.isDigit) = outline fun kind => uids.countP (·.kind = kind) := by
  refine ⟨fun u v => ⟨fun h kind => ?_, fun h => ?_⟩, fun uids kind => readIds_render kind uids,
    filter_render⟩
  · rw [← readIds_render, h, readIds_render]
  · have hids (kind : ElementType) : idsOf kind u = idsOf kind v := by
      have htexts := congrArg (List.map String.toList) (h kind)
      rwa [List.map_map, List.map_map] at htexts
    rw [← String.toList_inj, toList_render, toList_render]
    simp only [hids]

end ShopValidation.Query
