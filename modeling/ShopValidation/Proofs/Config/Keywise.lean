import ShopValidation.Proofs.Config.Accepted
import ShopValidation.Proofs.Text.Trimming
import ShopValidation.Proofs.Text.WrittenNumber

/-!
# Settings one by one

What an environment says about one setting can be seen in the environment that has the name of that
setting and no other. A configuration is put together from these: it is read when each of them is, it
has each setting as its own environment gives it, and where one is refused, the first refusal in the
order of reading is the answer.
-/

namespace ShopValidation

namespace ValidationConfig

open Text (Writes trim)

/-- The settings of a configuration. -/
inductive Part where
  | sourceUrl
  | batchMax
  | delays
  | maxAge
  | testing
  | ensureSchema
deriving DecidableEq, Repr

namespace Part

/-- The settings in the order in which they are read. -/
def order : List Part := [.sourceUrl, .batchMax, .delays, .maxAge, .testing, .ensureSchema]

/-- The name that a setting stands under. -/
def key : Part → String
  | .sourceUrl => sourceUrlKey
  | .batchMax => batchMaxKey
  | .delays => delaysKey
  | .maxAge => maxAgeKey
  | .testing => testingKey
  | .ensureSchema => ensureSchemaKey

/-- Whether two configurations have a setting in common. -/
def Agree (a b : ValidationConfig) : Part → Prop
  | .sourceUrl => a.sourceUrl = b.sourceUrl
  | .batchMax => a.batchMax = b.batchMax
  | .delays => a.delays = b.delays
  | .maxAge => a.maxAge = b.maxAge
  | .testing => a.testing = b.testing
  | .ensureSchema => a.ensureSchema = b.ensureSchema

/-- A configuration with one setting taken from another. -/
def transfer (source : ValidationConfig) : Part → ValidationConfig → ValidationConfig
  | .sourceUrl, config => { config with sourceUrl := source.sourceUrl }
  | .batchMax, config => { config with batchMax := source.batchMax }
  | .delays, config => { config with delays := source.delays }
  | .maxAge, config => { config with maxAge := source.maxAge }
  | .testing, config => { config with testing := source.testing }
  | .ensureSchema, config => { config with ensureSchema := source.ensureSchema }

/-- The standard configuration with one setting read from an environment. -/
def readAlone (env : Environment) : Part → Except ConfigError ValidationConfig
  | .sourceUrl =>
    (setting env sourceUrlKey ({} : ValidationConfig).sourceUrl fun raw =>
      .ok (Text.trimmed raw)).map fun url => { sourceUrl := url }
  | .batchMax =>
    (setting env batchMaxKey ({} : ValidationConfig).batchMax readBatchMax).map fun size =>
      { batchMax := size }
  | .delays =>
    (setting env delaysKey ({} : ValidationConfig).delays Setting.readDelays).map fun delays =>
      { delays := delays }
  | .maxAge =>
    (setting env maxAgeKey ({} : ValidationConfig).maxAge readMaxAge).map fun age =>
      { maxAge := age }
  | .testing =>
    (setting env testingKey ({} : ValidationConfig).testing Setting.readSwitch).map fun on =>
      { testing := on }
  | .ensureSchema =>
    (setting env ensureSchemaKey ({} : ValidationConfig).ensureSchema Setting.readSwitch).map
      fun on => { ensureSchema := on }

theorem mem_order (part : Part) : part ∈ order := by cases part <;> decide

theorem key_inj {a b : Part} : a.key = b.key ↔ a = b := by
  cases a <;> cases b <;> decide

end Part

variable {env : Environment} {α : Type} {fallback : α} {read : String → Except Refusal α}
  {key other raw : String}

/-- A setting is read from its own name alone as from the whole environment. -/
theorem setting_only : setting (env.only key) key fallback read = setting env key fallback read := by
  simp [setting]

/-- Where another name is the only one, a setting has its default. -/
theorem setting_only_of_ne (h : key ≠ other) :
    setting (env.only other) key fallback read = .ok fallback := by
  simp [setting, Environment.nonBlank?, Environment.only, h]

/-- Where nothing is set, a setting has its default. -/
theorem setting_of_none (h : env.nonBlank? key = none) :
    setting env key fallback read = .ok fallback := by
  simp [setting, h]

/-- Where something is set, it is read. -/
theorem setting_of_some (h : env.nonBlank? key = some raw) :
    setting env key fallback read = (read raw).mapError (ConfigError.mk key) := by
  simp [setting, h]

/-- The environment of one name gives the standard configuration with that setting. -/
theorem load_only (env : Environment) (part : Part) :
    load (env.only part.key) = part.readAlone env := by
  cases part <;>
    simp (disch := decide) only [load, Part.key, Part.readAlone, setting_only, setting_only_of_ne]
  case sourceUrl => cases setting env sourceUrlKey _ _ <;> rfl
  case batchMax => cases setting env batchMaxKey _ _ <;> rfl
  case delays => cases setting env delaysKey _ _ <;> rfl
  case maxAge => cases setting env maxAgeKey _ _ <;> rfl
  case testing => cases setting env testingKey _ _ <;> rfl
  case ensureSchema => cases setting env ensureSchemaKey _ _ <;> rfl

/-- A configuration is put together from those that its settings give one by one. -/
theorem load_eq_mapM (env : Environment) :
    load env =
      (Part.order.mapM fun part => (load (env.only part.key)).map part.transfer).map
        fun changes => changes.foldl (fun config change => change config) {} := by
  simp only [load_only, Part.order, List.mapM_cons, List.mapM_nil, Part.readAlone]
  simp only [load]
  cases setting env sourceUrlKey _ _ with
  | error => rfl
  | ok =>
    cases setting env batchMaxKey _ _ with
    | error => rfl
    | ok =>
      cases setting env delaysKey _ _ with
      | error => rfl
      | ok =>
        cases setting env maxAgeKey _ _ with
        | error => rfl
        | ok =>
          cases setting env testingKey _ _ with
          | error => rfl
          | ok => cases setting env ensureSchemaKey _ _ <;> rfl

variable {config alone : ValidationConfig} {part : Part} {error : ConfigError}

/-- A configuration is read when each of its settings is. -/
theorem exists_load_iff : (∃ config, load env = .ok config) ↔
    ∀ part : Part, ∃ alone, load (env.only part.key) = .ok alone := by
  have hmap {x : Except ConfigError ValidationConfig}
      {f : ValidationConfig → ValidationConfig → ValidationConfig} :
      (∃ change, x.map f = .ok change) ↔ ∃ alone, x = .ok alone := by
    simp [Except.map_eq_ok_iff]
  have hchanges : (∃ changes, (Part.order.mapM fun part =>
      (load (env.only part.key)).map part.transfer) = .ok changes) ↔ _ := Except.exists_mapM_eq_ok_iff
  simp only [hmap] at hchanges
  rw [load_eq_mapM]
  simp only [Except.map_eq_ok_iff]
  constructor
  · rintro ⟨_, changes, hread, -⟩ part
    exact hchanges.mp ⟨changes, hread⟩ part (Part.mem_order part)
  · intro h
    obtain ⟨changes, hread⟩ := hchanges.mpr fun part _ => h part
    exact ⟨_, changes, hread, rfl⟩

/-- A configuration is refused as the first of its settings is that is refused. -/
theorem load_eq_error_iff : load env = .error error ↔
    ∃ before part after, Part.order = before ++ part :: after ∧
      (∀ earlier ∈ before, ∃ alone, load (env.only earlier.key) = .ok alone) ∧
      load (env.only part.key) = .error error := by
  rw [load_eq_mapM]
  simp only [Except.map_eq_error_iff, Except.mapM_eq_error_iff, Except.map_eq_ok_iff]
  simp

/-- A configuration has each setting as the environment of its name alone gives it. -/
theorem agree_of_load (h : load env = .ok config) (halone : load (env.only part.key) = .ok alone) :
    part.Agree config alone := by
  obtain ⟨hurl, hsize, hdelays, hage, htesting, hschema⟩ := load_eq_ok_iff.mp h
  rw [load_only] at halone
  cases part with
  | sourceUrl =>
    obtain ⟨url, hread, rfl⟩ := Except.map_eq_ok_iff.mp halone
    exact Except.ok.inj (hurl.symm.trans hread)
  | batchMax =>
    obtain ⟨size, hread, rfl⟩ := Except.map_eq_ok_iff.mp halone
    exact Except.ok.inj (hsize.symm.trans hread)
  | delays =>
    obtain ⟨delays, hread, rfl⟩ := Except.map_eq_ok_iff.mp halone
    exact Except.ok.inj (hdelays.symm.trans hread)
  | maxAge =>
    obtain ⟨age, hread, rfl⟩ := Except.map_eq_ok_iff.mp halone
    exact Except.ok.inj (hage.symm.trans hread)
  | testing =>
    obtain ⟨on, hread, rfl⟩ := Except.map_eq_ok_iff.mp halone
    exact Except.ok.inj (htesting.symm.trans hread)
  | ensureSchema =>
    obtain ⟨on, hread, rfl⟩ := Except.map_eq_ok_iff.mp halone
    exact Except.ok.inj (hschema.symm.trans hread)

/-- What is refused of a setting is refused under its name. -/
theorem key_of_setting_error (h : setting env key fallback read = .error error) : error.key = key := by
  unfold setting at h
  split at h
  · cases h
  · obtain ⟨refusal, -, rfl⟩ := Except.mapError_eq_error_iff.mp h
    rfl

/-- The environment of one name is refused under that name. -/
theorem key_of_load_only_error (h : load (env.only part.key) = .error error) :
    error.key = part.key := by
  rw [load_only] at h
  cases part <;> exact key_of_setting_error (Except.map_eq_error_iff.mp h)

/-- A configuration is refused as the setting is under whose name it is refused. -/
theorem load_only_of_load_error (h : load env = .error error) (hkey : error.key = part.key) :
    load (env.only part.key) = .error error := by
  obtain ⟨_, refused, _, -, -, hrefused⟩ := load_eq_error_iff.mp h
  have hsame : refused = part := Part.key_inj.mp ((key_of_load_only_error hrefused).symm.trans hkey)
  rwa [hsame] at hrefused

/-- Where nothing is set under a name, that name alone gives the standard configuration. -/
theorem load_only_of_none (h : env.nonBlank? part.key = none) :
    load (env.only part.key) = .ok {} := by
  rw [load_only]
  cases part <;> simp only [Part.key] at h <;> rw [Part.readAlone, setting_of_none h] <;> rfl

/-- The address of the source is any text, without the blanks around it. -/
theorem load_only_sourceUrl (h : env.nonBlank? sourceUrlKey = some raw) :
    load (env.only sourceUrlKey) = .ok { sourceUrl := Text.trimmed raw } := by
  have halone : load (env.only sourceUrlKey) = Part.sourceUrl.readAlone env := load_only env .sourceUrl
  rw [halone, Part.readAlone, setting_of_some h]
  rfl

/-- A list of delays is what its reader makes of it. -/
theorem load_only_delays (h : env.nonBlank? delaysKey = some raw) :
    load (env.only delaysKey) =
      ((Setting.readDelays raw).mapError (ConfigError.mk delaysKey)).map fun delays =>
        { delays := delays } := by
  have halone : load (env.only delaysKey) = Part.delays.readAlone env := load_only env .delays
  rw [halone, Part.readAlone, setting_of_some h]

/-- A batch size is a number of a word of 64 bits other than zero. -/
theorem load_only_batchMax_eq_ok_iff (h : env.nonBlank? batchMaxKey = some raw) :
    load (env.only batchMaxKey) = .ok alone ↔ ∃ n, Writes n (trim raw.toList) ∧
      1 ≤ n ∧ n ≤ 18446744073709551615 ∧ alone = { batchMax := n } := by
  have halone : load (env.only batchMaxKey) = Part.batchMax.readAlone env := load_only env .batchMax
  rw [halone, Part.readAlone, setting_of_some h, Except.map_eq_ok_iff]
  simp only [Except.mapError_eq_ok_iff, readBatchMax_eq_ok_iff, Setting.readNumber_eq_ok_iff,
    Text.readInteger_unsigned64_eq_ok_iff, Int.ofNat_inj]
  constructor
  · rintro ⟨_, ⟨⟨n, hwrites, hupper, rfl⟩, hpos⟩, rfl⟩
    exact ⟨_, hwrites, hpos, hupper, rfl⟩
  · rintro ⟨n, hwrites, hpos, hupper, rfl⟩
    exact ⟨n, ⟨⟨n, hwrites, hupper, rfl⟩, hpos⟩, rfl⟩

/-- A maximal age is a positive number of days up to the longest. -/
theorem load_only_maxAge_eq_ok_iff (h : env.nonBlank? maxAgeKey = some raw) :
    load (env.only maxAgeKey) = .ok alone ↔ ∃ days : Nat, Writes days (trim raw.toList) ∧
      1 ≤ days ∧ days ≤ 106751991167 ∧ alone = { maxAge := some (days * 86400) } := by
  have hread {days : Nat} (hpos : 0 < days) :
      Text.readInteger .signed64 (trim raw.toList) = .ok (days : Int) ↔
        Writes days (trim raw.toList) ∧ (days : Int) ≤ 9223372036854775807 :=
    Text.readInteger_natCast_eq_ok_iff (by decide) (.inl hpos)
  have halone : load (env.only maxAgeKey) = Part.maxAge.readAlone env := load_only env .maxAge
  have hlongest : longestAgeDays = 106751991167 := by decide
  rw [halone, Part.readAlone, setting_of_some h, Except.map_eq_ok_iff]
  simp only [Except.mapError_eq_ok_iff, readMaxAge_eq_ok_iff, Setting.readNumber_eq_ok_iff, hlongest]
  constructor
  · rintro ⟨_, ⟨days, hdays, hpos, hlong, rfl⟩, rfl⟩
    lift days to ℕ using Int.le_of_lt hpos
    have hpos : 0 < days := by omega
    exact ⟨days, ((hread hpos).mp hdays).1, hpos, by omega, rfl⟩
  · rintro ⟨days, hwrites, hpos, hlong, rfl⟩
    exact ⟨_, ⟨days, (hread hpos).mpr ⟨hwrites, by omega⟩, by omega, by omega, rfl⟩, rfl⟩

/-- Each setting is read as if it were the only one. A configuration is read exactly when every setting
is read alone, and it then has every setting as read alone, which is the default where nothing but
blanks is set. Otherwise the answer is the error of the first setting that is refused alone, in the
order of reading. An address is never refused. A batch size is read exactly from the texts that write a
number from 1 to the largest of 64 bits, and a maximal age from those that write a number of days from
1 to the longest. -/
theorem load_keywise (env : Environment) :
    ((∃ config, load env = .ok config) ↔
      ∀ part : Part, ∃ alone, load (env.only part.key) = .ok alone) ∧
    (∀ config, load env = .ok config → ∀ (part : Part) (alone : ValidationConfig),
      load (env.only part.key) = .ok alone → part.Agree config alone) ∧
    (∀ part : Part, env.nonBlank? part.key = none → load (env.only part.key) = .ok {}) ∧
    (∀ error, load env = .error error ↔
      ∃ before part after, Part.order = before ++ part :: after ∧
        (∀ earlier ∈ before, ∃ alone, load (env.only earlier.key) = .ok alone) ∧
        load (env.only part.key) = .error error) ∧
    (∀ error, load (env.only sourceUrlKey) ≠ .error error) ∧
    (∀ raw, env.nonBlank? batchMaxKey = some raw → ∀ alone,
      load (env.only batchMaxKey) = .ok alone ↔ ∃ n, Writes n (trim raw.toList) ∧
        1 ≤ n ∧ n ≤ 18446744073709551615 ∧ alone = { batchMax := n }) ∧
    ∀ raw, env.nonBlank? maxAgeKey = some raw → ∀ alone,
      load (env.only maxAgeKey) = .ok alone ↔ ∃ days : Nat, Writes days (trim raw.toList) ∧
        1 ≤ days ∧ days ≤ 106751991167 ∧ alone = { maxAge := some (days * 86400) } := by
  refine ⟨exists_load_iff, fun config h part alone => agree_of_load h,
    fun part => load_only_of_none, fun error => load_eq_error_iff, fun error => ?_,
    fun raw h alone => load_only_batchMax_eq_ok_iff h, fun raw h alone => load_only_maxAge_eq_ok_iff h⟩
  cases hraw : env.nonBlank? sourceUrlKey with
  | none =>
    have hstandard : load (env.only Part.sourceUrl.key) = .ok {} := load_only_of_none hraw
    intro herror
    cases hstandard.symm.trans herror
  | some raw => simp [load_only_sourceUrl hraw]

/-- An environment with a maximal age that is too long, and a batch size of zero. -/
def twiceRefused : Environment := .ofList [(maxAgeKey, "106751991168"), (batchMaxKey, "0")]

/-- An environment with the longest maximal age. -/
def longestAged : Environment := .ofList [(maxAgeKey, " +0106751991167 ")]

/-- Of two refused settings the one that is read first is reported. The longest maximal age is read. -/
theorem load_keywise_twiceRefused :
    load twiceRefused = .error ⟨batchMaxKey, "0", .notPositive⟩ ∧
      ∃ config, load longestAged = .ok config ∧ config.maxAge = some 9223372036828800 := by
  constructor
  · obtain ⟨-, -, hunset, herror, -⟩ := load_keywise twiceRefused
    refine (herror _).mpr
      ⟨[.sourceUrl], .batchMax, [.delays, .maxAge, .testing, .ensureSchema], rfl, ?_, by decide +kernel⟩
    simpa using ⟨{}, hunset .sourceUrl (by decide)⟩
  · obtain ⟨hread, hagree, hunset, -, -, -, hmaxAge⟩ := load_keywise longestAged
    have halone : load (longestAged.only Part.maxAge.key) = .ok { maxAge := some 9223372036828800 } :=
      (hmaxAge " +0106751991167 " (by decide) _).mpr
        ⟨106751991167, .plus 1, by decide, by decide, rfl⟩
    have hall : ∀ part : Part, ∃ alone, load (longestAged.only part.key) = .ok alone := by
      intro part
      cases part with
      | maxAge => exact ⟨_, halone⟩
      | sourceUrl | batchMax | delays | testing | ensureSchema =>
        exact ⟨{}, hunset _ (by decide)⟩
    obtain ⟨config, hload⟩ := hread.mpr hall
    exact ⟨config, hload, hagree config hload .maxAge _ halone⟩

end ValidationConfig

end ShopValidation
