import Mathlib.Data.List.DropRight
import ShopValidation.Text.Blank

/-!
# What trimming leaves

Trimming a text takes blanks off both ends, and what is left has none there. These two properties say
all about it: whatever has no blank at its ends is what trimming leaves of it with any blanks around.
-/

namespace ShopValidation.Text

/-- Whether a text is another one with blanks around it. -/
def Pads (inner text : List Char) : Prop :=
  ∃ before after, (∀ c ∈ before, isBlank c = true) ∧ (∀ c ∈ after, isBlank c = true) ∧
    text = before ++ (inner ++ after)

/-- Whether a text has no blank at its ends. -/
structure Trimmed (text : List Char) : Prop where
  first : ∀ c ∈ text.head?, isBlank c = false
  last : ∀ c ∈ text.getLast?, isBlank c = false

variable {inner text : List Char}

/-- A text without any blanks has none at its ends. -/
theorem trimmed_of_forall (h : ∀ c ∈ text, isBlank c = false) : Trimmed text :=
  ⟨fun c hc => h c (List.mem_of_mem_head? hc), fun c hc => h c (List.mem_of_mem_getLast? hc)⟩

/-- Only blanks are cut off. -/
theorem pads_trim (text : List Char) : Pads (trim text) text := by
  refine ⟨text.takeWhile isBlank, (text.dropWhile isBlank).rtakeWhile isBlank,
    fun c hc => List.mem_takeWhile_imp hc, fun c hc => List.mem_rtakeWhile_imp hc, ?_⟩
  have hback : trim text ++ (text.dropWhile isBlank).rtakeWhile isBlank = text.dropWhile isBlank :=
    List.rdropWhile_append_rtakeWhile
  rw [hback, List.takeWhile_append_dropWhile]

/-- The blanks in front are none where the first character is no blank. -/
theorem dropWhile_isBlank_of_head? (h : ∀ c ∈ text.head?, isBlank c = false) :
    text.dropWhile isBlank = text := by
  cases text with
  | nil => rfl
  | cons c rest => exact List.dropWhile_cons_of_neg (by simp [h c rfl])

/-- What follows the blanks in front does not begin with one. -/
theorem isBlank_of_mem_head?_dropWhile (text : List Char) {c : Char}
    (hc : c ∈ (text.dropWhile isBlank).head?) : isBlank c = false := by
  have hhead := List.head?_dropWhile_not isBlank text
  rwa [hc] at hhead

/-- What trimming leaves has no blank at its ends. -/
theorem trimmed_trim (text : List Char) : Trimmed (trim text) := by
  constructor
  · intro c hc
    obtain ⟨back, hback⟩ : trim text <+: text.dropWhile isBlank := List.rdropWhile_prefix _ _
    refine isBlank_of_mem_head?_dropWhile text ?_
    rw [← hback, List.head?_append, hc]
    rfl
  · intro c hc
    rw [trim, List.getLast?_reverse] at hc
    exact isBlank_of_mem_head?_dropWhile _ hc

/-- A text is trimmed to another one exactly when it is that with blanks around it, and the other one has
no blank at its ends. -/
theorem trim_eq_iff : trim text = inner ↔ Trimmed inner ∧ Pads inner text := by
  constructor
  · rintro rfl
    exact ⟨trimmed_trim text, pads_trim text⟩
  · rintro ⟨⟨hfirst, hlast⟩, before, after, hbefore, hafter, rfl⟩
    rw [trim, List.dropWhile_append_of_pos hbefore]
    by_cases hnil : inner = []
    · have hnone : after.dropWhile isBlank = [] := List.dropWhile_eq_nil_iff.mpr hafter
      rw [hnil, List.nil_append, hnone]
      rfl
    · have hfront : (inner ++ after).dropWhile isBlank = inner ++ after := by
        refine dropWhile_isBlank_of_head? fun c hc => hfirst c ?_
        rwa [List.head?_append_of_ne_nil _ hnil] at hc
      have hback : inner.reverse.dropWhile isBlank = inner.reverse :=
        dropWhile_isBlank_of_head? fun c hc => hlast c (by rwa [List.head?_reverse] at hc)
      rw [hfront, List.reverse_append,
        List.dropWhile_append_of_pos fun c hc => hafter c (List.mem_reverse.mp hc), hback,
        List.reverse_reverse]

/-- Trimming again changes nothing. -/
@[simp] theorem trim_trim (text : List Char) : trim (trim text) = trim text :=
  trim_eq_iff.mpr ⟨trimmed_trim text, [], [], by simp, by simp, by simp⟩

/-- Trimming leaves nothing exactly of blanks. -/
theorem trim_eq_nil_iff : trim text = [] ↔ ∀ c ∈ text, isBlank c = true := by
  rw [trim_eq_iff]
  constructor
  · rintro ⟨-, before, after, hbefore, hafter, rfl⟩ c hc
    exact (List.mem_append.mp hc).elim (hbefore c) (hafter c)
  · intro h
    exact ⟨trimmed_of_forall (by simp), text, [], h, by simp, by simp⟩

end ShopValidation.Text
