import ShopValidation.Proofs.Config.Keywise

/-!
# Lists of delays as they are written

A list of delays is written as numbers of seconds with commas between them, and any blanks around each
number. Exactly these texts are read, as the delays in the same order, one more than there are commas.
Any other text is refused for the first entry from the left that is no such number: an entry of blanks
with the text as it is, any other entry with the entry and what is wrong with it.
-/

namespace ShopValidation

open Text (IntegerError Pads Refused Writes isBlank trim trim_eq_nil_iff trim_trim)

namespace Setting

/-- Whether a text is these parts, with a comma between each two of them. -/
structure SplitsInto (text : List Char) (parts : List (List Char)) : Prop where
  ne_nil : parts ≠ []
  no_comma : ∀ part ∈ parts, ',' ∉ part
  text_eq : text = [','].intercalate parts

/-- Whether an entry writes a number of 64 bits, with any blanks around it. -/
def WritesEntry (n : Nat) (entry : List Char) : Prop :=
  n ≤ 18446744073709551615 ∧ ∃ number, Writes n number ∧ Pads number entry

/-- Whether a text writes a list of numbers of 64 bits, with a comma between each two of them. -/
def WritesAll (seconds : List Nat) (text : List Char) : Prop :=
  seconds ≠ [] ∧ ∃ entries, List.Forall₂ WritesEntry seconds entries ∧ text = [','].intercalate entries

/-- What is wrong with an entry of a list of delays. -/
def EntryRefused (raw : String) (entry : List Char) (refusal : Refusal) : Prop :=
  (∀ c ∈ entry, isBlank c = true) ∧ refusal = ⟨raw, .emptyEntry⟩ ∨
  (∃ c ∈ entry, isBlank c = false) ∧ ∃ cause, Refused 18446744073709551615 (trim entry) cause ∧
    refusal = ⟨String.ofList (trim entry), .notInteger cause⟩

variable {text entry : List Char} {parts : List (List Char)} {raw : String} {n : Nat} {d : Duration}
  {refusal : Refusal} {seconds : List Nat} {delays : List Duration}

/-- Splitting at commas is splitting at an element. -/
theorem splitCommas_eq_splitOn (text : List Char) : splitCommas text = text.splitOn ',' := by
  induction text with
  | nil => rfl
  | cons c rest ih =>
    obtain ⟨part, parts, hrest⟩ := List.exists_cons_of_ne_nil (splitCommas_ne_nil rest)
    rw [List.splitOn_eq_splitOnP, List.splitOnP_cons_eq_if_modifyHead, ← List.splitOn_eq_splitOnP, ← ih,
      splitCommas, hrest]
    simp

/-- No part between commas has a comma. -/
theorem not_mem_of_mem_splitCommas {part : List Char} (h : part ∈ splitCommas text) : ',' ∉ part := by
  induction text generalizing part with
  | nil => simp_all [splitCommas]
  | cons c rest ih =>
    obtain ⟨first, parts, hrest⟩ := List.exists_cons_of_ne_nil (splitCommas_ne_nil rest)
    have hfirst : ',' ∉ first := ih (by rw [hrest]; exact List.mem_cons_self)
    have hparts : ∀ part ∈ parts, ',' ∉ part := fun part hpart =>
      ih (by rw [hrest]; exact List.mem_cons_of_mem _ hpart)
    rw [splitCommas, hrest] at h
    by_cases hcomma : c = ','
    · simp only [hcomma, if_true, List.mem_cons] at h
      rcases h with rfl | rfl | h
      · simp
      · exact hfirst
      · exact hparts part h
    · simp only [hcomma, if_false, List.mem_cons] at h
      rcases h with rfl | h
      · simp [Ne.symm hcomma, hfirst]
      · exact hparts part h

/-- A text is split into the parts without commas that it is made of with commas between. -/
theorem splitCommas_eq_iff : splitCommas text = parts ↔ SplitsInto text parts := by
  constructor
  · rintro rfl
    refine ⟨splitCommas_ne_nil text, fun part => not_mem_of_mem_splitCommas, ?_⟩
    rw [splitCommas_eq_splitOn, List.intercalate_splitOn]
  · rintro ⟨hsome, hcomma, rfl⟩
    rw [splitCommas_eq_splitOn, List.splitOn_intercalate ',' hcomma hsome]

/-- There is one more part than there are commas. -/
theorem length_splitCommas (text : List Char) : (splitCommas text).length = text.count ',' + 1 := by
  induction text with
  | nil => rfl
  | cons c rest ih =>
    obtain ⟨part, parts, hrest⟩ := List.exists_cons_of_ne_nil (splitCommas_ne_nil rest)
    rw [hrest] at ih
    rw [splitCommas, hrest]
    by_cases hcomma : c = ','
    · simpa [hcomma] using ih
    · simpa [hcomma] using ih

/-- An entry writes a number when what trimming leaves of it does. -/
theorem writesEntry_iff : WritesEntry n entry ↔ n ≤ 18446744073709551615 ∧ Writes n (trim entry) := by
  rw [WritesEntry, Text.writes_trim_iff]

/-- An entry that writes a number has no comma. -/
theorem WritesEntry.no_comma (h : WritesEntry n entry) : ',' ∉ entry := by
  obtain ⟨-, number, hwrites, before, after, hbefore, hafter, rfl⟩ := h
  intro hmem
  rcases List.mem_append.mp hmem with hmem | hmem
  · exact absurd (hbefore ',' hmem) (by decide)
  · rcases List.mem_append.mp hmem with hmem | hmem
    · exact absurd (hwrites.mem hmem) (by decide)
    · exact absurd (hafter ',' hmem) (by decide)

/-- An entry of blanks is refused, and any other one is read as what trimming leaves of it. -/
theorem readDelay_eq (raw : String) (entry : List Char) :
    readDelay raw entry =
      if trim entry = [] then .error ⟨raw, .emptyEntry⟩
      else ((Text.readInteger .unsigned64 (trim entry)).mapError fun cause =>
        ⟨String.ofList (trim entry), .notInteger cause⟩).map fun n => Duration.ofSeconds n.toNat := by
  simp only [readDelay, readNumber, List.isEmpty_iff, String.toList_ofList, trim_trim]

/-- An entry is read as a number that it writes. -/
theorem readDelay_eq_ok_iff :
    readDelay raw entry = .ok d ↔ ∃ n, WritesEntry n entry ∧ d = Duration.ofSeconds n := by
  rw [readDelay_eq]
  simp only [writesEntry_iff]
  split
  case isTrue hblank =>
    refine iff_of_false (by simp) ?_
    rintro ⟨n, ⟨-, hwrites⟩, -⟩
    rw [hblank] at hwrites
    exact hwrites.ne_nil rfl
  case isFalse =>
    simp only [Except.map_eq_ok_iff, Except.mapError_eq_ok_iff, Text.readInteger_unsigned64_eq_ok_iff]
    constructor
    · rintro ⟨_, ⟨n, hwrites, hupper, rfl⟩, rfl⟩
      exact ⟨n, ⟨hupper, hwrites⟩, rfl⟩
    · rintro ⟨n, ⟨hupper, hwrites⟩, rfl⟩
      exact ⟨n, ⟨n, hwrites, hupper, rfl⟩, rfl⟩

/-- An entry is refused for what is wrong with it. -/
theorem readDelay_eq_error_iff :
    readDelay raw entry = .error refusal ↔ EntryRefused raw entry refusal := by
  have hinteger (cause : IntegerError) : Text.readInteger .unsigned64 (trim entry) = .error cause ↔
      Refused 18446744073709551615 (trim entry) cause := Text.readInteger_eq_error_iff
  have hblank : (∃ c ∈ entry, isBlank c = false) ↔ trim entry ≠ [] := by
    rw [ne_eq, trim_eq_nil_iff]
    simp
  rw [readDelay_eq, EntryRefused, hblank, ← trim_eq_nil_iff]
  split
  case isTrue hnil => simp [hnil, eq_comm]
  case isFalse hsome =>
    simp only [Except.map_eq_error_iff, Except.mapError_eq_error_iff, hinteger]
    simp [hsome, eq_comm]

/-- Entries are read as delays when they write numbers, and the delays are of as many seconds. -/
theorem forall₂_exists_writesEntry_iff {entries : List (List Char)} :
    List.Forall₂ (fun entry d => ∃ n, WritesEntry n entry ∧ d = Duration.ofSeconds n) entries delays ↔
      ∃ seconds, List.Forall₂ WritesEntry seconds entries ∧ delays = seconds.map Duration.ofSeconds := by
  constructor
  · intro h
    induction h with
    | nil => exact ⟨[], .nil, rfl⟩
    | cons hentry _ ih =>
      obtain ⟨n, hwrites, rfl⟩ := hentry
      obtain ⟨seconds, hall, rfl⟩ := ih
      exact ⟨n :: seconds, .cons hwrites hall, rfl⟩
  · rintro ⟨seconds, hall, rfl⟩
    induction hall with
    | nil => exact .nil
    | cons hwrites _ ih => exact .cons ⟨_, hwrites, rfl⟩ ih

/-- A list of delays is read exactly from the texts that write it. -/
theorem readDelays_eq_ok_iff : readDelays raw = .ok delays ↔
    ∃ seconds, WritesAll seconds raw.toList ∧ delays = seconds.map Duration.ofSeconds := by
  rw [readDelays, Except.mapM_eq_ok_iff]
  simp only [readDelay_eq_ok_iff, forall₂_exists_writesEntry_iff]
  constructor
  · rintro ⟨seconds, hall, rfl⟩
    obtain ⟨hsome, -, htext⟩ := splitCommas_eq_iff.mp (rfl : splitCommas raw.toList = _)
    refine ⟨seconds, ⟨?_, splitCommas raw.toList, hall, htext⟩, rfl⟩
    rintro rfl
    exact hsome (List.forall₂_nil_left_iff.mp hall)
  · rintro ⟨seconds, ⟨hsome, entries, hall, htext⟩, rfl⟩
    have hentries : splitCommas raw.toList = entries := by
      have hboth : List.Forall₂ (fun entry n => ',' ∉ entry ∧ WritesEntry n entry) entries seconds :=
        (hall.imp fun _ _ hwrites => ⟨hwrites.no_comma, hwrites⟩).flip
      refine splitCommas_eq_iff.mpr ⟨?_, ((List.forall₂_and_left _ _).mp hboth).1, htext⟩
      rintro rfl
      exact hsome (List.forall₂_nil_right_iff.mp hall)
    exact ⟨seconds, hentries ▸ hall, rfl⟩

/-- A list of delays is refused for the first entry that is no number. -/
theorem readDelays_eq_error_iff : readDelays raw = .error refusal ↔
    ∃ before entry after, SplitsInto raw.toList (before ++ entry :: after) ∧
      (∀ earlier ∈ before, ∃ n, WritesEntry n earlier) ∧ EntryRefused raw entry refusal := by
  rw [readDelays, Except.mapM_eq_error_iff]
  simp only [readDelay_eq_ok_iff, readDelay_eq_error_iff, splitCommas_eq_iff]
  simp

/-- There is one more delay than there are commas. -/
theorem length_of_readDelays (h : readDelays raw = .ok delays) :
    delays.length = raw.toList.count ',' + 1 := by
  rw [← length_splitCommas, (Except.mapM_eq_ok_iff.mp h).length_eq]

/-- A text that writes a list of numbers has more than blanks. -/
theorem WritesAll.trim_ne_nil (h : WritesAll seconds text) : trim text ≠ [] := by
  obtain ⟨hsome, entries, hall, rfl⟩ := h
  rw [ne_eq, trim_eq_nil_iff]
  intro hblank
  cases hall with
  | nil => exact hsome rfl
  | @cons n entry seconds entries hentry hall =>
    have hsub : ∀ c ∈ entry, c ∈ [','].intercalate (entry :: entries) := by
      intro c hc
      cases entries with
      | nil => simpa using hc
      | cons next entries =>
        rw [List.intercalate_cons_cons, List.append_assoc]
        exact List.mem_append_left _ hc
    have hnil : trim entry = [] := trim_eq_nil_iff.mpr fun c hc => hblank c (hsub c hc)
    exact (writesEntry_iff.mp hentry).2.ne_nil hnil

end Setting

namespace ValidationConfig

open Setting (EntryRefused SplitsInto WritesAll WritesEntry)

/-- Delays are read back from every text that writes them, in whatever environment it is set, and from
no other text, so there is always one, and one more than there are commas where they are set. A text
that is refused is refused under the name of the delays for the first entry from the left that is no
number: a blank one with the whole text, any other with what trimming leaves of it. -/
theorem delays_exact (env : Environment) (raw : String) :
    (∀ seconds, env.value? delaysKey = some raw → WritesAll seconds raw.toList →
      load (env.only delaysKey) = .ok { delays := seconds.map Duration.ofSeconds } ∧
      ∀ config, load env = .ok config → config.delays = seconds.map Duration.ofSeconds) ∧
    (∀ config, load env = .ok config → config.delays ≠ [] ∧
      (env.nonBlank? delaysKey = some raw →
        config.delays.length = raw.toList.count ',' + 1 ∧
        ∃ seconds, WritesAll seconds raw.toList ∧
          config.delays = seconds.map Duration.ofSeconds)) ∧
    ∀ error, env.nonBlank? delaysKey = some raw →
      (load env = .error error → error.key = delaysKey →
        load (env.only delaysKey) = .error error) ∧
      (load (env.only delaysKey) = .error error ↔
        ∃ before entry after refusal, SplitsInto raw.toList (before ++ entry :: after) ∧
          (∀ earlier ∈ before, ∃ n, WritesEntry n earlier) ∧ EntryRefused raw entry refusal ∧
          error = ⟨delaysKey, refusal⟩) := by
  refine ⟨fun seconds hvalue hwrites => ?_, fun config hload => ?_, fun error hset => ⟨?_, ?_⟩⟩
  · have hset : env.nonBlank? delaysKey = some raw :=
      Environment.nonBlank?_eq_some_iff.mpr ⟨hvalue, hwrites.trim_ne_nil⟩
    have hread : Setting.readDelays raw = .ok (seconds.map Duration.ofSeconds) :=
      Setting.readDelays_eq_ok_iff.mpr ⟨seconds, hwrites, rfl⟩
    have halone : load (env.only Part.delays.key) =
        .ok { delays := seconds.map Duration.ofSeconds } := by
      refine (load_only_delays hset).trans ?_
      rw [hread]
      rfl
    exact ⟨halone, fun config hload => agree_of_load hload halone⟩
  · refine ⟨(accepted_of_load hload).delays_ne_nil, fun hset => ?_⟩
    obtain ⟨-, -, hdelays, -⟩ := load_eq_ok_iff.mp hload
    rw [setting_of_some hset, Except.mapError_eq_ok_iff] at hdelays
    exact ⟨Setting.length_of_readDelays hdelays, Setting.readDelays_eq_ok_iff.mp hdelays⟩
  · intro hload hkey
    have halone : load (env.only Part.delays.key) = .error error := load_only_of_load_error hload hkey
    exact halone
  · rw [load_only_delays hset]
    simp only [Except.map_eq_error_iff, Except.mapError_eq_error_iff, Setting.readDelays_eq_error_iff]
    constructor
    · rintro ⟨refusal, ⟨before, entry, after, hsplit, hbefore, hrefused⟩, rfl⟩
      exact ⟨before, entry, after, refusal, hsplit, hbefore, hrefused, rfl⟩
    · rintro ⟨before, entry, after, refusal, hsplit, hbefore, hrefused, rfl⟩
      exact ⟨refusal, ⟨before, entry, after, hsplit, hbefore, hrefused⟩, rfl⟩

/-- A list with a sign, zeros and blanks of two kinds is read back. One with a blank entry in front of a
word is refused for the blank entry. -/
theorem delays_exact_spaced :
    load ((Environment.ofList [(delaysKey, " +0060,\u30007")]).only delaysKey) =
        .ok { delays := [.ofSeconds 60, .ofSeconds 7] } ∧
      load ((Environment.ofList [(delaysKey, "60,,x")]).only delaysKey) =
        .error ⟨delaysKey, "60,,x", .emptyEntry⟩ := by
  have hsixty : WritesEntry 60 [' ', '+', '0', '0', '6', '0'] :=
    ⟨by decide, ['+', '0', '0', '6', '0'], .plus 2, [' '], [], List.forall_mem_singleton.mpr rfl,
      List.forall_mem_nil _, rfl⟩
  have hseven : WritesEntry 7 ['\u3000', '7'] :=
    ⟨by decide, ['7'], .unsigned 0, ['\u3000'], [], List.forall_mem_singleton.mpr rfl,
      List.forall_mem_nil _, rfl⟩
  have hplain : WritesEntry 60 ['6', '0'] :=
    ⟨by decide, ['6', '0'], .unsigned 0, [], [], List.forall_mem_nil _, List.forall_mem_nil _, rfl⟩
  have hwrites : WritesAll [60, 7] " +0060,\u30007".toList :=
    ⟨by decide, _, .cons hsixty (.cons hseven .nil), by decide⟩
  have hsplits : SplitsInto "60,,x".toList [['6', '0'], [], ['x']] :=
    ⟨by decide, by decide, by decide⟩
  constructor
  · exact ((delays_exact _ " +0060,\u30007").1 [60, 7] (by decide) hwrites).1
  · refine ((delays_exact _ "60,,x").2.2 _ (by decide)).2.mpr
      ⟨[['6', '0']], [], [['x']], ⟨"60,,x", .emptyEntry⟩, hsplits, ?_, .inl ⟨List.forall_mem_nil _, rfl⟩,
        rfl⟩
    simpa using ⟨60, hplain⟩

example : (load (.ofList [(delaysKey, "60,,x")])).mapError ConfigError.message =
    .error "SHOPGEO_VALIDATION_BACKOFF_SECS: invalid value \"60,,x\": empty entry" := by
  decide +kernel

end ValidationConfig

end ShopValidation
