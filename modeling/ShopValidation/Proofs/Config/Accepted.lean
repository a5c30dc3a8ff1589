import Mathlib.Data.List.Forall2
import ShopValidation.Config.Validation
import ShopValidation.Proofs.Text.IntegerValue

/-!
# What an accepted configuration is

A configuration is accepted when each of its settings is, and a setting is accepted when nothing is
set for it or its reader takes what is set. So every accepted configuration has batches of at least
one task, at least one delay, and a maximal age of whole days that fits a signed word of 64 bits even
in milliseconds.
-/

namespace ShopValidation

namespace Except

universe u v w

variable {ε : Type u} {ε' : Type w} {α β : Type v} {e : ε} {a : α} {b : β} {x : Except ε α}

/-- Two computations in a row succeed when each of them does. -/
theorem bind_eq_ok_iff {f : α → Except ε β} : x >>= f = .ok b ↔ ∃ a, x = .ok a ∧ f a = .ok b := by
  cases x <;> simp [bind, Except.bind]

/-- Two computations in a row fail when the first does, or the second after it. -/
theorem bind_eq_error_iff {f : α → Except ε β} :
    x >>= f = .error e ↔ x = .error e ∨ ∃ a, x = .ok a ∧ f a = .error e := by
  cases x <;> simp [bind, Except.bind]

/-- A value is a success with that value. -/
theorem pure_eq_ok_iff {c : α} : (pure c : Except ε α) = .ok a ↔ c = a := by
  simp [pure, Except.pure]

/-- A computation succeeds with a changed result when it succeeds. -/
theorem map_eq_ok_iff {f : α → β} : x.map f = .ok b ↔ ∃ a, x = .ok a ∧ f a = b := by
  cases x <;> simp [Except.map]

/-- A computation fails with a changed result when it fails. -/
theorem map_eq_error_iff {f : α → β} : x.map f = .error e ↔ x = .error e := by
  cases x <;> simp [Except.map]

/-- A change of the error leaves successes alone. -/
theorem mapError_eq_ok_iff {f : ε → ε'} : x.mapError f = .ok a ↔ x = .ok a := by
  cases x <;> simp [Except.mapError]

/-- A computation fails with a changed error when it fails. -/
theorem mapError_eq_error_iff {f : ε → ε'} {e' : ε'} :
    x.mapError f = .error e' ↔ ∃ e, x = .error e ∧ f e = e' := by
  cases x <;> simp [Except.mapError]

/-- A guard before a computation succeeds when it lets pass. -/
theorem guard_eq_ok_iff {refused : Prop} [Decidable refused] {f : PUnit → Except ε α} :
    (if refused then throw e >>= f else x) = .ok a ↔ ¬refused ∧ x = .ok a := by
  by_cases h : refused <;> simp [h, bind, Except.bind, throw, throwThe, MonadExceptOf.throw]

/-- Computations along a list succeed when each of them does. -/
theorem mapM_eq_ok_iff {xs : List α} {ys : List β} {f : α → Except ε β} :
    xs.mapM f = .ok ys ↔ List.Forall₂ (fun x y => f x = .ok y) xs ys := by
  induction xs generalizing ys with
  | nil => rw [List.mapM_nil, pure_eq_ok_iff, List.forall₂_nil_left_iff, eq_comm]
  | cons x xs ih =>
    simp only [List.mapM_cons, bind_eq_ok_iff, pure_eq_ok_iff, ih, List.forall₂_cons_left_iff]
    constructor
    · rintro ⟨y, hy, ys, hys, rfl⟩
      exact ⟨y, ys, hy, hys, rfl⟩
    · rintro ⟨y, ys, hy, hys, rfl⟩
      exact ⟨y, hy, ys, hys, rfl⟩

/-- Computations along a list fail as the first of them that does not succeed. -/
theorem mapM_eq_error_iff {xs : List α} {f : α → Except ε β} :
    xs.mapM f = .error e ↔ ∃ before x after, xs = before ++ x :: after ∧
      (∀ earlier ∈ before, ∃ y, f earlier = .ok y) ∧ f x = .error e := by
  induction xs with
  | nil => simp [pure, Except.pure]
  | cons x xs ih =>
    simp only [List.mapM_cons, bind_eq_error_iff, ih]
    constructor
    · rintro (hx | ⟨y, hy, ⟨before, z, after, rfl, hbefore, hz⟩ | ⟨ys, -, hpure⟩⟩)
      · exact ⟨[], x, xs, rfl, by simp, hx⟩
      · refine ⟨x :: before, z, after, rfl, fun earlier hearlier => ?_, hz⟩
        rcases List.mem_cons.mp hearlier with rfl | hmem
        · exact ⟨y, hy⟩
        · exact hbefore earlier hmem
      · cases hpure
    · rintro ⟨before, z, after, hsplit, hbefore, hz⟩
      cases before with
      | nil =>
        obtain ⟨rfl, rfl⟩ := List.cons.inj hsplit
        exact .inl hz
      | cons first before =>
        obtain ⟨rfl, rfl⟩ := List.cons.inj hsplit
        obtain ⟨y, hy⟩ := hbefore x List.mem_cons_self
        exact .inr ⟨y, hy, .inl ⟨before, z, after, rfl,
          fun earlier hearlier => hbefore earlier (List.mem_cons_of_mem _ hearlier), hz⟩⟩

/-- Computations along a list succeed with some results when each of them succeeds. -/
theorem exists_mapM_eq_ok_iff {xs : List α} {f : α → Except ε β} :
    (∃ ys, xs.mapM f = .ok ys) ↔ ∀ x ∈ xs, ∃ y, f x = .ok y := by
  induction xs with
  | nil => simp [pure, Except.pure]
  | cons x xs ih =>
    simp only [List.mapM_cons, bind_eq_ok_iff, pure_eq_ok_iff, List.forall_mem_cons, ← ih]
    constructor
    · rintro ⟨_, y, hy, ys, hys, rfl⟩
      exact ⟨⟨y, hy⟩, ys, hys⟩
    · rintro ⟨⟨y, hy⟩, ys, hys⟩
      exact ⟨y :: ys, y, hy, ys, hys, rfl⟩

end Except

variable {env : Environment} {key raw : String}

namespace Setting

variable {bounds : Text.Bounds} {n : Int}

/-- An integer is read where the text without the blanks around it is one. -/
theorem readNumber_eq_ok_iff :
    readNumber bounds raw = .ok n ↔ Text.readInteger bounds (Text.trim raw.toList) = .ok n :=
  Except.mapError_eq_ok_iff

/-- A number that is read lies within the bounds. -/
theorem contains_of_readNumber (hzero : bounds.Contains 0) (h : readNumber bounds raw = .ok n) :
    bounds.Contains n := by
  obtain ⟨_, _, _, _, _, _, hwithin⟩ :=
    (Text.readInteger_eq_ok_iff hzero).mp (readNumber_eq_ok_iff.mp h)
  exact hwithin

/-- A positive integer is read where an integer is, and it is above zero. -/
theorem readPositive_eq_ok_iff :
    readPositive bounds raw = .ok n ↔ readNumber bounds raw = .ok n ∧ 0 < n := by
  rw [readPositive, Except.bind_eq_ok_iff]
  simp only [Except.guard_eq_ok_iff, Except.pure_eq_ok_iff, Int.not_le]
  constructor
  · rintro ⟨_, hread, hpos, rfl⟩
    exact ⟨hread, hpos⟩
  · rintro ⟨hread, hpos⟩
    exact ⟨n, hread, hpos, rfl⟩

/-- The words that turn a switch on, or off. -/
def wordsFor (on : Bool) : List String :=
  if on then ["1", "true", "yes", "on"] else ["0", "false", "no", "off"]

/-- A word is found exactly among the words of its side. -/
theorem lookup_switchWords_iff {word : String} {on : Bool} :
    switchWords.lookup word = some on ↔ word ∈ wordsFor on := by
  constructor
  · intro h
    obtain ⟨front, back, hsplit, -⟩ := List.lookup_eq_some_iff.mp h
    have hmem : (word, on) ∈ switchWords := hsplit ▸ List.mem_append_right _ List.mem_cons_self
    have hsides : ∀ pair ∈ switchWords, pair.1 ∈ wordsFor pair.2 := by decide
    exact hsides _ hmem
  · have hfound : ∀ on, ∀ word ∈ wordsFor on, switchWords.lookup word = some on := by decide
    exact hfound on word

/-- A switch is read where the text is one of the words, whatever blanks stand around it and whichever
of its letters are capitals. -/
theorem readSwitch_eq_ok_iff {on : Bool} :
    readSwitch raw = .ok on ↔
      ∃ word ∈ wordsFor on, (Text.trim raw.toList).map Char.toLower = word.toList := by
  have hword : readSwitch raw = .ok on ↔ switchWords.lookup (plainWord raw) = some on := by
    unfold readSwitch
    cases switchWords.lookup (plainWord raw) <;> simp
  rw [hword, lookup_switchWords_iff]
  constructor
  · intro hmem
    exact ⟨plainWord raw, hmem, String.toList_ofList.symm⟩
  · rintro ⟨word, hmem, hsame⟩
    rwa [plainWord, hsame, String.ofList_toList]

/-- Every other text is refused as it stands. -/
theorem readSwitch_eq_error_iff {refusal : Refusal} :
    readSwitch raw = .error refusal ↔ refusal = ⟨raw, .notSwitch⟩ ∧
      ∀ on, ∀ word ∈ wordsFor on, (Text.trim raw.toList).map Char.toLower ≠ word.toList := by
  have hother : (∀ on, readSwitch raw ≠ .ok on) ↔
      ∀ on, ∀ word ∈ wordsFor on, (Text.trim raw.toList).map Char.toLower ≠ word.toList :=
    forall_congr' fun on => by
      rw [Ne, readSwitch_eq_ok_iff]
      simp only [not_exists, not_and]
  rw [← hother]
  unfold readSwitch
  cases switchWords.lookup (plainWord raw) <;> simp [eq_comm]

/-- A list of delays that is read has one for each of its entries, so that it is not empty. -/
theorem readDelays_ne_nil {delays : List Duration} (h : readDelays raw = .ok delays) :
    delays ≠ [] := by
  have hlength := (Except.mapM_eq_ok_iff.mp h).length_eq
  have hsome := List.length_pos_iff.mpr (splitCommas_ne_nil raw.toList)
  exact List.length_pos_iff.mp (hlength ▸ hsome)

end Setting

namespace ValidationConfig

variable {α : Type} {fallback x : α} {read : String → Except Refusal α} {config : ValidationConfig}
  {n : Nat} {maxAge : Option Int}

/-- A batch size is read where a positive integer is. -/
theorem readBatchMax_eq_ok_iff :
    readBatchMax raw = .ok n ↔
      Setting.readNumber .unsigned64 raw = .ok (n : Int) ∧ 0 < n := by
  rw [readBatchMax, Except.map_eq_ok_iff]
  simp only [Setting.readPositive_eq_ok_iff]
  constructor
  · rintro ⟨m, ⟨hread, hpos⟩, rfl⟩
    rw [Int.toNat_of_nonneg (Int.le_of_lt hpos)]
    exact ⟨hread, by omega⟩
  · rintro ⟨hread, hpos⟩
    exact ⟨n, ⟨hread, by omega⟩, Int.toNat_natCast n⟩

/-- A maximal age is read where a positive integer is, and it is not too long. -/
theorem readMaxAge_eq_ok_iff :
    readMaxAge raw = .ok maxAge ↔ ∃ days, Setting.readNumber .signed64 raw = .ok days ∧
      0 < days ∧ days ≤ longestAgeDays ∧ maxAge = some (days * 86400) := by
  rw [readMaxAge, Except.bind_eq_ok_iff]
  simp only [Except.guard_eq_ok_iff, Except.pure_eq_ok_iff, Setting.readPositive_eq_ok_iff,
    Int.not_lt]
  constructor
  · rintro ⟨days, ⟨hread, hpos⟩, hlong, rfl⟩
    exact ⟨days, hread, hpos, hlong, rfl⟩
  · rintro ⟨days, hread, hpos, hlong, rfl⟩
    exact ⟨days, ⟨hread, hpos⟩, hlong, rfl⟩

/-- A setting is accepted where nothing is set, as its default, or as what its reader takes. -/
theorem setting_eq_ok_iff :
    setting env key fallback read = .ok x ↔
      (env.nonBlank? key = none ∧ x = fallback) ∨
        ∃ raw, env.nonBlank? key = some raw ∧ read raw = .ok x := by
  rw [setting]
  cases env.nonBlank? key with
  | none => simp [eq_comm]
  | some raw => simp [Except.mapError_eq_ok_iff]

/-- A configuration is accepted where all its settings are. -/
theorem load_eq_ok_iff :
    load env = .ok config ↔
      setting env sourceUrlKey ({} : ValidationConfig).sourceUrl
          (fun raw => .ok (Text.trimmed raw)) = .ok config.sourceUrl ∧
        setting env batchMaxKey ({} : ValidationConfig).batchMax readBatchMax =
          .ok config.batchMax ∧
        setting env delaysKey ({} : ValidationConfig).delays Setting.readDelays =
          .ok config.delays ∧
        setting env maxAgeKey ({} : ValidationConfig).maxAge readMaxAge = .ok config.maxAge ∧
        setting env testingKey ({} : ValidationConfig).testing Setting.readSwitch =
          .ok config.testing ∧
        setting env ensureSchemaKey ({} : ValidationConfig).ensureSchema Setting.readSwitch =
          .ok config.ensureSchema := by
  simp only [load, Except.bind_eq_ok_iff, Except.pure_eq_ok_iff]
  constructor
  · rintro ⟨_, hsourceUrl, _, hbatchMax, _, hdelays, _, hmaxAge, _, htesting, _, hensure, rfl⟩
    exact ⟨hsourceUrl, hbatchMax, hdelays, hmaxAge, htesting, hensure⟩
  · rintro ⟨hsourceUrl, hbatchMax, hdelays, hmaxAge, htesting, hensure⟩
    exact ⟨_, hsourceUrl, _, hbatchMax, _, hdelays, _, hmaxAge, _, htesting, _, hensure, rfl⟩

/-- What is true of every accepted configuration. -/
structure Accepted (config : ValidationConfig) : Prop where
  batchMax_pos : 0 < config.batchMax
  batchMax_le : config.batchMax ≤ 18446744073709551615
  delays_ne_nil : config.delays ≠ []
  maxAge_days : ∀ age, config.maxAge = some age →
    ∃ days, 0 < days ∧ age = days * 86400 ∧ age * 1000 ≤ 9223372036854775807

/-- Every configuration that is read is accepted. -/
theorem accepted_of_load (h : load env = .ok config) : config.Accepted := by
  obtain ⟨-, hbatchMax, hdelays, hmaxAge, -, -⟩ := load_eq_ok_iff.mp h
  rw [setting_eq_ok_iff] at hbatchMax hdelays hmaxAge
  have hsize : 0 < config.batchMax ∧ config.batchMax ≤ 18446744073709551615 := by
    rcases hbatchMax with ⟨-, hstandard⟩ | ⟨raw, -, hread⟩
    · rw [hstandard]
      decide
    · obtain ⟨hnumber, hpos⟩ := readBatchMax_eq_ok_iff.mp hread
      obtain ⟨-, hupper⟩ := Setting.contains_of_readNumber (by decide) hnumber
      exact ⟨hpos, Int.ofNat_le.mp hupper⟩
  refine ⟨hsize.1, hsize.2, ?_, fun age hage => ?_⟩
  · rcases hdelays with ⟨-, hstandard⟩ | ⟨raw, -, hread⟩
    · rw [hstandard]
      decide
    · exact Setting.readDelays_ne_nil hread
  · rcases hmaxAge with ⟨-, hstandard⟩ | ⟨raw, -, hread⟩
    · rw [hage] at hstandard
      cases hstandard
    · obtain ⟨days, -, hpos, hlong, hdays⟩ := readMaxAge_eq_ok_iff.mp hread
      obtain rfl := Option.some.inj (hage.symm.trans hdays)
      refine ⟨days, hpos, rfl, ?_⟩
      rw [longestAgeDays] at hlong
      omega

end ValidationConfig

end ShopValidation
