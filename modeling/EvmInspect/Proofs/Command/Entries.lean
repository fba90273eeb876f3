import EvmInspect.Command.Decode
import EvmInspect.Proofs.Command.Actions
import Mathlib.Data.List.TakeDrop

/-!
# Entries from the command line

The entries of a settings file are checked with the settings. Those of the command line are added
later, when nothing is checked any more, so reading them has to see to it that they would pass. It
does for the address, which is the text before the first equals sign. The text behind it is taken
as the path even if there is none (`LacksPath`).

`added_entries_pass_iff` says that this is the only way in which settings with added entries fail
their check, and that such an entry is handed on to be registered all the same.
-/

namespace EvmInspect

namespace Settings

/-! ## Arguments -/

/-- Nothing stands behind the first equals sign of an argument. -/
def LacksPath (argument : String) : Prop :=
  ∃ address, '=' ∉ address ∧ argument.toList = address ++ ['=']

namespace AbiEntry

/-- An argument is split at its first equals sign. -/
theorem splitArgument?_eq_some_iff {argument address path : String} :
    splitArgument? argument = some (address, path) ↔
      '=' ∉ address.toList ∧ argument.toList = address.toList ++ '=' :: path.toList := by
  rw [splitArgument?, List.span_eq_takeWhile_dropWhile]
  constructor
  · intro split
    have joined := List.takeWhile_append_dropWhile (p := (· != '=')) (l := argument.toList)
    have stop := List.head?_dropWhile_not (· != '=') argument.toList
    cases rest : argument.toList.dropWhile (· != '=') with
    | nil =>
      rw [rest] at split
      cases split
    | cons c path =>
      rw [rest] at split joined stop
      cases split
      have equals : c = '=' := by simpa using stop
      subst equals
      rw [String.toList_ofList, String.toList_ofList]
      refine ⟨fun mem => ?_, joined.symm⟩
      have other := List.all_eq_true.mp List.all_takeWhile _ mem
      simp at other
  · rintro ⟨absent, joined⟩
    have others : ∀ c ∈ address.toList, (c != '=') = true := by
      intro c mem
      have other : c ≠ '=' := fun same => absent (same ▸ mem)
      simpa using other
    rw [joined, List.takeWhile_append_of_pos others, List.dropWhile_append_of_pos others]
    simp

theorem ofArgument_eq_ok_iff {chain : UInt64} {argument : String} {entry : AbiEntry} :
    ofArgument chain argument = .ok entry ↔
      ∃ address path a, splitArgument? argument = some (address, path) ∧
        Address.parse address = .ok a ∧ entry = ⟨chain, address, none, path⟩ := by
  unfold ofArgument
  cases split : splitArgument? argument with
  | none => simp
  | some parts =>
    obtain ⟨address, path⟩ := parts
    dsimp only
    cases parsed : Address.parse address with
    | error cause =>
      refine iff_of_false nofun ?_
      rintro ⟨_, _, a, ⟨⟩, parsed', _⟩
      rw [parsed] at parsed'
      cases parsed'
    | ok a =>
      constructor
      · intro same
        cases same
        exact ⟨address, path, a, rfl, parsed, rfl⟩
      · rintro ⟨_, _, _, ⟨⟩, _, rfl⟩
        rfl

theorem parsedAddress_of_parse {entry : AbiEntry} {a : Address}
    (parsed : Address.parse entry.address = .ok a) : entry.parsedAddress = .ok a := by
  rw [parsedAddress, parsed]
  rfl

/-- An entry that is read from an argument has an address, and lacks a path if the argument does. -/
theorem of_ofArgument {chain : UInt64} {argument : String} {entry : AbiEntry}
    (read : ofArgument chain argument = .ok entry) :
    (∃ a, entry.parsedAddress = .ok a) ∧ (entry.path = "" ↔ LacksPath argument) := by
  obtain ⟨address, path, a, split, parsed, rfl⟩ := ofArgument_eq_ok_iff.mp read
  obtain ⟨absent, joined⟩ := splitArgument?_eq_some_iff.mp split
  refine ⟨⟨a, parsedAddress_of_parse parsed⟩, ?_⟩
  constructor
  · intro empty
    have nothing : path = "" := empty
    subst nothing
    exact ⟨address.toList, absent, joined⟩
  · rintro ⟨address', absent', bare⟩
    have split' : splitArgument? argument = some (String.ofList address', "") := by
      refine splitArgument?_eq_some_iff.mpr ⟨?_, ?_⟩
      · rwa [String.toList_ofList]
      · rw [String.toList_ofList]
        exact bare
    rw [split] at split'
    cases split'
    rfl

end AbiEntry

/-- Entries that are read from arguments, one from each. -/
theorem of_mapM_ofArgument {chain : UInt64} {arguments : List String} {entries : List AbiEntry}
    (read : arguments.mapM (AbiEntry.ofArgument chain) = .ok entries) :
    (∀ entry ∈ entries, ∃ a, entry.parsedAddress = .ok a) ∧
      ((∀ entry ∈ entries, entry.path ≠ "") ↔ ∀ argument ∈ arguments, ¬ LacksPath argument) := by
  have each := Command.mapM_eq_ok_iff.mp read
  clear read
  induction each with
  | nil => exact ⟨nofun, iff_of_true nofun nofun⟩
  | cons first _ ih =>
    obtain ⟨parsed, path⟩ := AbiEntry.of_ofArgument first
    obtain ⟨parsedAll, paths⟩ := ih
    refine ⟨List.forall_mem_cons.mpr ⟨parsed, parsedAll⟩, ?_⟩
    rw [List.forall_mem_cons, List.forall_mem_cons, paths, ne_eq, path]

/-- Entries that have addresses pass the check together with settings that do if they have paths. -/
theorem check_added_iff {settings : Settings} {entries : List AbiEntry}
    (passes : settings.check = .ok ())
    (parsed : ∀ entry ∈ entries, ∃ a, entry.parsedAddress = .ok a) :
    ({ settings with abi := settings.abi ++ entries } : Settings).check = .ok () ↔
      ∀ entry ∈ entries, entry.path ≠ "" := by
  have sound := check_eq_ok_iff.mp passes
  rw [check_eq_ok_iff]
  constructor
  · intro added entry mem
    have checked := added.entries entry (List.mem_append_right settings.abi mem)
    exact (AbiEntry.check_eq_ok_iff.mp checked).2
  · intro paths
    refine ⟨sound.url, sound.timeout, sound.preview, ?_⟩
    refine List.forall_mem_append.mpr ⟨sound.entries, fun entry mem => ?_⟩
    exact AbiEntry.check_eq_ok_iff.mpr ⟨parsed entry mem, paths entry mem⟩

end Settings

namespace Command

open Settings (AbiEntry LacksPath)

variable {σ : Type}

/-! ## Decoding -/

/-- What is known to `decode` before it registers anything: the settings, the record, and all
entries. -/
def Surroundings.gather (s : Surroundings (StateM σ)) (settingsPath : Option String)
    (options : DecodeOptions) : Action (StateM σ) (Settings × Trace.Recorded × List AbiEntry) := do
  let settings ← s.loadSettings settingsPath
  let recorded ← s.loadRecord options.result
  let recorded := { recorded with chainId := options.chainId.getD recorded.chainId }
  let entries ← orFail .badArgument (options.abi.mapM (AbiEntry.ofArgument recorded.chainId))
  return (settings, recorded, settings.abi ++ entries)

/-- The entries that are gathered are those that are registered. -/
theorem decode_eq (s : Surroundings (StateM σ)) (settingsPath : Option String)
    (options : DecodeOptions) :
    decode s settingsPath options = (do
      let (settings, recorded, entries) ← s.gather settingsPath options
      let registry ← s.registerAll entries
      return printed settings.preview options.json (recorded.decode registry) ++ "\n") := by
  simp only [decode, Surroundings.gather, bind_assoc, pure_bind]

theorem of_gather {s : Surroundings (StateM σ)} {settingsPath : Option String}
    {options : DecodeOptions} {settings : Settings} {recorded : Trace.Recorded}
    {entries : List AbiEntry} {w w' : σ}
    (gathered : (s.gather settingsPath options).run.run w =
      (.ok (settings, recorded, entries), w')) :
    settings.check = .ok () ∧ ∃ added, entries = settings.abi ++ added ∧
      options.abi.mapM (AbiEntry.ofArgument recorded.chainId) = .ok added := by
  obtain ⟨settings', _, loaded, gathered⟩ := exists_of_run_bind gathered
  obtain ⟨recorded', _, _, gathered⟩ := exists_of_run_bind gathered
  obtain ⟨added, _, read, gathered⟩ := exists_of_run_bind gathered
  cases gathered
  refine ⟨check_of_loadSettings loaded, added, rfl, ?_⟩
  rw [run_orFail] at read
  cases each : options.abi.mapM (AbiEntry.ofArgument _) with
  | ok added' =>
    rw [each] at read
    cases read
    rfl
  | error e =>
    rw [each] at read
    cases read

/-- Entries that are read from arguments have addresses. Added to settings that pass their check,
they pass it too exactly if none of the arguments lacks a path. `decode` registers the entries of
its settings and then those that it reads from its arguments, without a check of these: all have
addresses, and all have paths exactly if none of its arguments lacks one. -/
theorem added_entries_pass_iff :
    (∀ (settings : Settings) (chain : UInt64) (arguments : List String) (added : List AbiEntry),
      settings.check = .ok () → arguments.mapM (AbiEntry.ofArgument chain) = .ok added →
      (({ settings with abi := settings.abi ++ added } : Settings).check = .ok () ↔
        ∀ argument ∈ arguments, ¬ LacksPath argument)) ∧
    ∀ (s : Surroundings (StateM σ)) (settingsPath : Option String) (options : DecodeOptions),
      decode s settingsPath options = (do
        let (settings, recorded, entries) ← s.gather settingsPath options
        let registry ← s.registerAll entries
        return printed settings.preview options.json (recorded.decode registry) ++ "\n") ∧
      ∀ w w' settings recorded entries, (s.gather settingsPath options).run.run w =
          (.ok (settings, recorded, entries), w') →
        (∀ entry ∈ entries, ∃ a, entry.parsedAddress = .ok a) ∧
        ((∀ entry ∈ entries, entry.path ≠ "") ↔ ∀ argument ∈ options.abi, ¬ LacksPath argument) := by
  constructor
  · intro settings chain arguments added passes read
    obtain ⟨parsed, paths⟩ := Settings.of_mapM_ofArgument read
    exact (Settings.check_added_iff passes parsed).trans paths
  · intro s settingsPath options
    refine ⟨decode_eq s settingsPath options, ?_⟩
    intro w w' settings recorded entries gathered
    obtain ⟨passes, added, rfl, read⟩ := of_gather gathered
    obtain ⟨parsed, paths⟩ := Settings.of_mapM_ofArgument read
    have checked : ∀ entry ∈ settings.abi,
        (∃ a, entry.parsedAddress = .ok a) ∧ entry.path ≠ "" := fun entry mem =>
      Settings.AbiEntry.check_eq_ok_iff.mp
        ((Settings.check_eq_ok_iff.mp passes).entries entry mem)
    refine ⟨List.forall_mem_append.mpr ⟨fun entry mem => (checked entry mem).1, parsed⟩, ?_⟩
    rw [List.forall_mem_append, paths]
    exact and_iff_right fun entry mem => (checked entry mem).2

/-- Surroundings with one file, the record of an empty call. -/
def recordOnly : Surroundings (StateM Unit) where
  fileText path :=
    pure (if path = "run.json" then .ok "\x7b\"call\":\x7b\x7d,\"result\":\x7b\x7d\x7d"
      else .error .notFound)
  connect _ := ⟨fun _ => pure (.dropped "no node"), fun _ => pure ()⟩

/-- Decoding this record with one argument. -/
def decodeWith (argument : String) : DecodeOptions := ⟨"run.json", [argument], some 1, false⟩

/-- An argument with blanks around the address and an equals sign in the path. -/
def spaced : String := " 0x00000000000000000000000000000000000000AA =abis/a=b.json"

def spacedEntry : AbiEntry :=
  ⟨1, " 0x00000000000000000000000000000000000000AA ", none, "abis/a=b.json"⟩

theorem argument_with_path_passes :
    (({} : Settings).check = .ok () ∧ [spaced].mapM (AbiEntry.ofArgument 1) = .ok [spacedEntry] ∧
        (recordOnly.gather none (decodeWith spaced)).run.run () =
          (.ok ({}, ⟨1, default, default⟩, [spacedEntry]), ())) ∧
      ({ abi := [spacedEntry] } : Settings).check = .ok () ∧
      ∀ entry ∈ [spacedEntry], entry.path ≠ "" := by
  have passes : ({} : Settings).check = .ok () := rfl
  have read : [spaced].mapM (AbiEntry.ofArgument 1) = .ok [spacedEntry] :=
    mapM_eq_ok_iff.mpr (.cons rfl .nil)
  have gathered : (recordOnly.gather none (decodeWith spaced)).run.run () =
      (.ok ({}, ⟨1, default, default⟩, [spacedEntry]), ()) := rfl
  have path : ∀ argument ∈ [spaced], ¬ LacksPath argument := by
    refine List.forall_mem_singleton.mpr ?_
    rintro ⟨address, _, bare⟩
    have last := congrArg List.getLast? bare
    rw [List.getLast?_concat] at last
    exact absurd last (by decide)
  obtain ⟨pass, run⟩ := added_entries_pass_iff
  exact ⟨⟨passes, read, gathered⟩, (pass {} 1 _ _ passes read).mpr path,
    ((run recordOnly none _).2 _ _ _ _ _ gathered).2.mpr path⟩

/-- An argument that ends with the equals sign is read, though settings with the entry would fail
their check, and the entry is registered: the command fails over a file without a name. -/
theorem pathless_argument_is_registered :
    let argument := "0x00000000000000000000000000000000000000aa="
    let address := "0x00000000000000000000000000000000000000aa"
    let entry : AbiEntry := ⟨1, address, none, ""⟩
    ({} : Settings).check = .ok () ∧ AbiEntry.ofArgument 1 argument = .ok entry ∧
      ({ abi := [entry] } : Settings).check = .error (.noPath address) ∧
      (recordOnly.gather none (decodeWith argument)).run.run () =
        (.ok ({}, ⟨1, default, default⟩, [entry]), ()) ∧
      (decode recordOnly none (decodeWith argument)).run.run () =
        (.error (.unregistered address), ()) :=
  ⟨rfl, rfl, rfl, rfl, rfl⟩

end Command

end EvmInspect
