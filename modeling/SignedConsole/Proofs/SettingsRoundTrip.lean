import Mathlib.Control.Monad.Basic
import SignedConsole.Program.Options
import SignedConsole.Proofs.FileCells
import SignedConsole.Proofs.JsonLines

namespace SignedConsole

/-- What has been opened for writing ends with a name. -/
theorem Disk.create_path {path : String} {mode : Nat} {d d' : Disk} {handle : Handle}
    (hc : run (create path mode) d = (.ok handle, d')) :
    Path.unslashed path = path ∧ Path.endsWithSlash path = false := by
  have hslash : Path.endsWithSlash path = false := by
    rw [run_create] at hc
    cases hs : Path.endsWithSlash path with
    | false => rfl
    | true =>
      rw [hs] at hc
      split at hc
      · cases hc
      · cases hc
  refine ⟨?_, hslash⟩
  cases hlast : path.toList.getLast? with
  | none =>
    rw [List.getLast?_eq_none_iff, String.toList_eq_nil_iff] at hlast
    rw [hlast]
    decide
  | some c =>
    refine Path.unslashed_of_last hlast ?_
    rw [Path.endsWithSlash, hlast] at hslash
    simpa using hslash

namespace Json

/-- What a field says that may be left out. -/
def stated (read : Json → Option α) : Option Json → Option (Option α)
  | none => some none
  | some j => (read j).map some

theorem defaulted_stated (read : Json → Option α) (fallback : α) (field : Option Json) :
    defaulted read fallback field = (stated read field).map (·.getD fallback) := by
  cases field with
  | none => rfl
  | some j =>
    rw [defaulted, stated, Option.map_map]
    exact Option.map_id'.symm

theorem natUpTo_le {limit n : Nat} {j : Json} (h : natUpTo? limit j = some n) : n ≤ limit := by
  unfold natUpTo? at h
  split at h
  · dsimp only at h
    split at h
    · rename_i hle
      exact Option.some.inj h ▸ hle
    · cases h
  · cases h

end Json

namespace Settings

/-- What a settings file says about each field. -/
structure Stated where
  baseUrl : Option String
  scheme : Option Scheme
  policy : Option UnsignedPolicy
  timeoutSeconds : Option Nat
  stateDir : Option (Option String)

namespace Stated

def nothing : Stated := ⟨none, none, none, none, none⟩

/-- What a document says, if it is an object of settings: all fields that it has are in order. -/
def ofJson? (j : Json) : Option Stated := do
  let f ← j.fields? ["base_url", "scheme", "policy", "timeout_secs", "state_dir"]
  return ⟨← Json.stated Json.text? (f "base_url"),
    ← Json.stated (Json.name? Scheme.table) (f "scheme"),
    ← Json.stated (Json.name? UnsignedPolicy.table) (f "policy"),
    ← Json.stated (Json.natUpTo? maxNat64) (f "timeout_secs"),
    ← Json.stated (Json.option? Json.text?) (f "state_dir")⟩

/-- What a file says. One that is missing, or no settings, says nothing. -/
def inFile (path : String) (d : Disk) : Stated :=
  (((d.readText path).toOption.bind Json.read).bind ofJson?).getD nothing

/-- The defaults stand where nothing is said. -/
def filled (said : Stated) : Settings :=
  ⟨said.baseUrl.getD default.baseUrl, said.scheme.getD default.scheme,
    said.policy.getD default.policy, said.timeoutSeconds.getD default.timeoutSeconds,
    said.stateDir.getD default.stateDir⟩

theorem filled_ofJson (j : Json) : Settings.ofJson? j = (ofJson? j).map filled := by
  unfold Settings.ofJson? ofJson?
  cases j.fields? ["base_url", "scheme", "policy", "timeout_secs", "state_dir"] with
  | none => rfl
  | some f =>
    simp only [Json.defaulted_stated, Option.bind_eq_bind, Option.bind_some, Option.bind_map,
      Option.map_bind, Function.comp_def]
    rfl

theorem filled_inFile (path : String) (d : Disk) : load path d = (inFile path d).filled := by
  unfold load inFile
  cases (d.readText path).toOption with
  | none => rfl
  | some text =>
    rw [Option.bind_some, Option.bind_some, read?]
    cases Json.read text with
    | none => rfl
    | some j =>
      rw [Option.bind_some, Option.bind_some, filled_ofJson]
      cases ofJson? j <;> rfl

end Stated

/-- A time that the file can hold. -/
def Storable (s : Settings) : Prop := s.timeoutSeconds ≤ maxNat64

theorem ofJson_storable {j : Json} {s : Settings} (h : ofJson? j = some s) : s.Storable := by
  unfold ofJson? at h
  simp only [Option.bind_eq_bind, Option.bind_eq_some_iff] at h
  obtain ⟨f, _, _, _, _, _, _, _, timeout, ht, _, _, hs⟩ := h
  cases hs
  unfold Json.defaulted at ht
  split at ht
  · cases ht
    exact show default.timeoutSeconds ≤ maxNat64 by decide
  · exact Json.natUpTo_le ht

theorem load_storable (path : String) (d : Disk) : (load path d).Storable := by
  unfold load
  cases hr : (d.readText path).toOption.bind read? with
  | none => exact show default.timeoutSeconds ≤ maxNat64 by decide
  | some s =>
    obtain ⟨text, _, hs⟩ := Option.bind_eq_some_iff.mp hr
    obtain ⟨j, _, hj⟩ := Option.bind_eq_some_iff.mp hs
    exact ofJson_storable hj

/-- Settings are read as they are printed. -/
theorem read_print {s : Settings} (h : s.Storable) : read? s.print = some s := by
  obtain ⟨baseUrl, scheme, policy, timeout, stateDir⟩ := s
  have htimeout : Json.natUpTo? maxNat64 (.ofNat timeout) = some timeout := Json.natUpTo_ofNat h
  rw [read?, print, Json.read_printLines (by simp) ?_, Option.bind_some]
  · have hscheme : Json.name? Scheme.table (.ofString scheme.name) = some scheme := by
      cases scheme <;> rfl
    have hpolicy : Json.name? UnsignedPolicy.table (.ofString policy.name) = some policy := by
      cases policy <;> rfl
    have hstate : Json.option? Json.text? ((stateDir.map Json.ofString).getD .null) =
        some stateDir := by
      cases stateDir <;> rfl
    have hbase : Json.text? (.ofString baseUrl) = some baseUrl := rfl
    simp [ofJson?, Json.ofMembers, Json.fields?, List.lookup_cons, Json.defaulted, hbase, hscheme,
      hpolicy, htimeout, hstate]
  · intro m hm
    simp only [List.mem_cons, List.not_mem_nil, or_false] at hm
    rcases hm with rfl | rfl | rfl | rfl | rfl
    · exact Json.Plain.spelled (.text baseUrl)
    · exact Json.Plain.spelled (.text scheme.name)
    · exact Json.Plain.spelled (.text policy.name)
    · exact Json.nat_spelled timeout
    · cases stateDir with
      | none => exact Json.Plain.spelled .null
      | some dir => exact Json.Plain.spelled (.text dir)

/-- What has been saved is what the file holds. -/
theorem load_saved {s : Settings} {path : String} {d d' : Disk} (h : s.Storable) (hd : d.Sound)
    (hs : s.save path d = (.ok (), d')) : load path d' = s := by
  unfold save at hs
  have hgrown := Disk.makeDirectories_grown ((Path.parent? path).getD "") d
  rcases hm : Disk.run (Disk.makeDirectories ((Path.parent? path).getD "")) d with ⟨e | r, made⟩
  · simp [hm] at hs
  rw [hm] at hgrown
  simp only [hm, Disk.writeFile, Disk.run_bind] at hs
  rcases hc : Disk.run (Disk.create path 0o666) made with ⟨e | handle, opened⟩
  · simp [hc, Except.mapError] at hs
  simp only [hc, Disk.run_write, Disk.run_pure] at hs
  obtain ⟨hu, hslash⟩ := Disk.create_path hc
  obtain ⟨p, hl, hn⟩ := Disk.create_ok hu hc
  obtain ⟨id, mode, _, hready, hsame, _, hnode, hfile⟩ :=
    Disk.create_ready 0o666 hu hslash (hgrown.sound hd) hl hn
  cases hc.symm.trans hready
  have htext : d'.readText path = .ok s.print := by
    rw [← (Prod.mk.inj hs).2]
    have hwritten : (opened.files.modify id fun f =>
        { f with content := Disk.overwrite f.content 0 (Text.utf8 s.print) })[id]? =
          some ⟨mode, Text.utf8 s.print⟩ := by
      simp [hfile, Disk.overwrite_nil]
    exact FileStorage.readText_of_file ((hsame.files _).locate hl) hnode hwritten
  rw [load, htext, Except.toOption, Option.bind_some, read_print h]
  rfl

end Settings

namespace Options

/-- Options that say the same about the settings. -/
structure SameSettings (o o' : Options) : Prop where
  baseUrl : o'.baseUrl = o.baseUrl
  scheme : o'.scheme = o.scheme
  stateDir : o'.stateDir = o.stateDir
  failClosed : o'.failClosed = o.failClosed

theorem settings_storable (o : Options) (e : Environment) (d : Disk) : (o.settings e d).Storable := by
  unfold settings
  cases o.settingsPath e with
  | none => exact show Settings.default.timeoutSeconds ≤ maxNat64 by decide
  | some path => exact Settings.load_storable path d

/-- Options that have been applied change nothing when they are applied once more. -/
theorem apply_again {o o' : Options} (h : SameSettings o o') (s : Settings) :
    o'.applyTo (o.applyTo s) = o.applyTo s := by
  obtain ⟨hb, hs, hd, hf⟩ := h
  simp only [applyTo, hb, hs, hd, hf]
  cases o.baseUrl <;> cases o.scheme <;> cases o.stateDir <;> cases o.failClosed <;> rfl

theorem apply_nothing {o : Options} (h : SameSettings none o) (s : Settings) : o.applyTo s = s := by
  obtain ⟨hb, hs, hd, hf⟩ := h
  simp only [applyTo, hb, hs, hd, hf]
  rfl

/-- What the file of a run says, if there is a place for one. -/
def stated (o : Options) (e : Environment) (d : Disk) : Settings.Stated :=
  match o.settingsPath e with
  | some path => .inFile path d
  | .none => .nothing

/-- Settings that have been saved are found in the file, and a later run has them whose options say
nothing about settings, or the same. -/
theorem settings_persisted {o : Options} {e : Environment} {d d' : Disk} {saved : Option String}
    (hd : d.Sound) (hsave : o.saveConfig = true)
    (hp : o.persist e (o.settings e d) d = (.ok saved, d')) :
    ∃ path, o.settingsPath e = some path ∧ saved = some path ∧
      Settings.load path d' = o.settings e d ∧
      ∀ o' e', settingsPath o' e' = some path → SameSettings none o' ∨ SameSettings o o' →
        o'.settings e' d' = o.settings e d := by
  rw [persist, hsave] at hp
  cases hpath : o.settingsPath e with
  | none => simp [hpath] at hp
  | some path =>
    simp only [hpath, Bool.not_true, Bool.false_eq_true, ↓reduceIte] at hp
    rcases hr : (o.settings e d).save path d with ⟨err | r, later⟩
    · simp [hr, Except.map] at hp
    · rw [hr] at hp
      cases hp
      have hload : Settings.load path later = o.settings e d :=
        Settings.load_saved (o.settings_storable e d) hd hr
      refine ⟨path, rfl, rfl, hload, fun o' e' hpath' ho => ?_⟩
      rw [settings, hpath']
      dsimp only
      rw [hload]
      rcases ho with ho | ho
      · exact apply_nothing ho _
      · exact apply_again ho _

/-- Every field of the settings is what the options say, else what the file says, else the default.
What is saved is found in the file, and gives the same settings to a later run whose options say
nothing about them, or the same. -/
theorem settings_survive (o : Options) (e : Environment) (d : Disk) (hd : d.Sound) :
    let said := o.stated e d
    let s := o.settings e d
    (s.baseUrl = o.baseUrl.getD (said.baseUrl.getD Settings.default.baseUrl) ∧
      s.scheme = o.scheme.getD (said.scheme.getD Settings.default.scheme) ∧
      s.policy = (if o.failClosed then .failClosed
        else said.policy.getD Settings.default.policy) ∧
      s.timeoutSeconds = said.timeoutSeconds.getD Settings.default.timeoutSeconds ∧
      s.stateDir = o.stateDir.or (said.stateDir.getD Settings.default.stateDir)) ∧
    ∀ saved d', o.saveConfig = true → o.persist e s d = (.ok saved, d') →
      ∃ path, o.settingsPath e = some path ∧ saved = some path ∧ Settings.load path d' = s ∧
        ∀ o' e', settingsPath o' e' = some path → SameSettings none o' ∨ SameSettings o o' →
          o'.settings e' d' = s := by
  intro said s
  refine ⟨?_, fun saved d' hsave hp => settings_persisted hd hsave hp⟩
  have hs : s = o.applyTo said.filled := by
    simp only [s, said, settings, stated]
    cases o.settingsPath e with
    | none => rfl
    | some path => exact congrArg _ (Settings.Stated.filled_inFile path d)
  rw [hs]
  exact ⟨rfl, rfl, rfl, rfl, rfl⟩

/-- Who has once refused unsigned requests, and saved that, refuses them later without saying so. -/
theorem refusal_survives :
    let o : Options := { none with
      config := some "set/console.json", baseUrl := some "https://m\u00fcnchen.test",
      failClosed := true, saveConfig := true }
    let e : Environment := ⟨.none, .none, .none⟩
    let d := Disk.empty ["home"]
    let later : Options := { none with config := some "set/console.json" }
    d.Sound ∧ o.saveConfig = true ∧ SameSettings none later ∧
      ∃ d', o.persist e (o.settings e d) d = (.ok (some "set/console.json"), d') ∧
        later.settings e d' = o.settings e d ∧ (later.settings e d').policy = .failClosed := by
  intro o e d later
  have hd : d.Sound := Disk.empty_sound ["home"]
  have hlater : SameSettings none later := ⟨rfl, rfl, rfl, rfl⟩
  have hok : (o.persist e (o.settings e d) d).1 = .ok (some "set/console.json") := by
    decide +kernel
  rcases hp : o.persist e (o.settings e d) d with ⟨answer, d'⟩
  rw [hp] at hok
  obtain rfl : answer = .ok (some "set/console.json") := hok
  obtain ⟨path, hpath, _, _, hsame⟩ := (settings_survive o e d hd).2 _ d' rfl hp
  have hsettings := hsame later e hpath (Or.inl hlater)
  refine ⟨hd, rfl, hlater, d', rfl, hsettings, ?_⟩
  rw [hsettings]
  rfl

end Options
end SignedConsole
