import EvmInspect.Command.Surroundings
import Mathlib.Data.List.Forall2

/-!
# Steps of a command

How the steps of a command go when what is around it has a state of type `σ`: one after the other,
up to the first that fails. Settings that are loaded have passed their check.
-/

namespace EvmInspect.Command

variable {σ α β ε : Type}

/-! ## Outcomes -/

theorem bind_eq_ok_iff {x : Except ε α} {f : α → Except ε β} {v : β} :
    (x >>= f) = .ok v ↔ ∃ u, x = .ok u ∧ f u = .ok v := by
  cases x with
  | error e => exact iff_of_false nofun nofun
  | ok u =>
    constructor
    · exact fun both => ⟨u, rfl, both⟩
    · rintro ⟨_, ⟨⟩, rest⟩
      exact rest

theorem mapError_eq_ok_iff {ε' : Type} {x : Except ε α} {f : ε → ε'} {v : α} :
    x.mapError f = .ok v ↔ x = .ok v := by
  cases x with
  | error e => exact iff_of_false nofun nofun
  | ok u => rw [Except.mapError, Except.ok.injEq, Except.ok.injEq]

/-- A step for each item of a list succeeds exactly if it does for each of them. -/
theorem mapM_eq_ok_iff {f : α → Except ε β} {xs : List α} {ys : List β} :
    xs.mapM f = .ok ys ↔ List.Forall₂ (fun x y => f x = .ok y) xs ys := by
  induction xs generalizing ys with
  | nil =>
    rw [List.forall₂_nil_left_iff]
    exact ⟨fun done => (Except.ok.inj done).symm, fun none => none ▸ rfl⟩
  | cons x xs ih =>
    rw [List.mapM_cons, List.forall₂_cons_left_iff]
    constructor
    · intro done
      obtain ⟨v, first, done⟩ := bind_eq_ok_iff.mp done
      obtain ⟨vs, rest, done⟩ := bind_eq_ok_iff.mp done
      exact ⟨v, vs, first, ih.mp rest, (Except.ok.inj done).symm⟩
    · rintro ⟨v, vs, first, rest, rfl⟩
      exact bind_eq_ok_iff.mpr ⟨v, first, bind_eq_ok_iff.mpr ⟨vs, ih.mpr rest, rfl⟩⟩

/-! ## Actions -/

section Actions

variable {x : Action (StateM σ) α} {f : α → Action (StateM σ) β} {w w' : σ}

theorem run_bind_of_ok {v : α} (first : x.run.run w = (.ok v, w')) :
    (x >>= f).run.run w = (f v).run.run w' := by
  simp only [ExceptT.run_bind, StateT.run_bind, first]
  rfl

theorem run_bind_of_error {e : CommandError} (first : x.run.run w = (.error e, w')) :
    (x >>= f).run.run w = (.error e, w') := by
  simp only [ExceptT.run_bind, StateT.run_bind, first]
  rfl

/-- What succeeds has succeeded in its first step. -/
theorem exists_of_run_bind {v : β} (both : (x >>= f).run.run w = (.ok v, w')) :
    ∃ u w₁, x.run.run w = (.ok u, w₁) ∧ (f u).run.run w₁ = (.ok v, w') := by
  cases first : x.run.run w with
  | mk outcome w₁ =>
    cases outcome with
    | ok u => exact ⟨u, w₁, rfl, (run_bind_of_ok first).symm.trans both⟩
    | error e =>
      rw [run_bind_of_error first] at both
      cases both

theorem run_liftM (y : StateM σ α) :
    (liftM y : Action (StateM σ) α).run.run w = (.ok (y.run w).1, (y.run w).2) := rfl

theorem run_orFail {error : ε → CommandError} {outcome : Except ε α} :
    (orFail error outcome : Action (StateM σ) α).run.run w = (outcome.mapError error, w) := by
  cases outcome <;> rfl

end Actions

/-! ## Settings -/

/-- The settings that the text of a file holds. -/
def settingsOf (path : String) : Except FileError String → Except CommandError Settings
  | .error cause => .error (.unreadableSettings path cause)
  | .ok text =>
    match Settings.ofToml? text with
    | none => .error .malformedSettings
    | some settings => (settings.check.mapError .badSettings).map fun _ => settings

theorem settingsOf_eq_ok {path : String} {text : Except FileError String} {settings : Settings}
    (holds : settingsOf path text = .ok settings) : settings.check = .ok () := by
  cases text with
  | error cause => cases holds
  | ok text =>
    rw [settingsOf] at holds
    cases read : Settings.ofToml? text with
    | none =>
      rw [read] at holds
      cases holds
    | some found =>
      cases checked : found.check with
      | error e =>
        simp only [read, checked] at holds
        cases holds
      | ok _ =>
        simp only [read, checked] at holds
        cases holds
        exact checked

section LoadSettings

variable {s : Surroundings (StateM σ)} {w w' : σ}

/-- Loading the settings in a file reads the file and does nothing else. -/
theorem run_loadSettings {path : String} {text : Except FileError String}
    (read : (s.fileText path).run w = (text, w')) :
    (s.loadSettings (some path)).run.run w = (settingsOf path text, w') := by
  have first : (s.readText path (.unreadableSettings path)).run.run w =
      (text.mapError (.unreadableSettings path), w') := by
    have lifted : (liftM (s.fileText path) : Action (StateM σ) (Except FileError String)).run.run w =
        (.ok text, w') := (run_liftM _).trans (by rw [read])
    exact (run_bind_of_ok lifted).trans run_orFail
  cases text with
  | error cause => exact run_bind_of_error first
  | ok text =>
    refine (run_bind_of_ok first).trans ?_
    rw [settingsOf]
    cases Settings.ofToml? text with
    | none => rfl
    | some found =>
      show (orFail .badSettings found.check >>= fun _ => pure found :
        Action (StateM σ) Settings).run.run w' = ((found.check.mapError _).map _, w')
      cases found.check <;> rfl

/-- Settings that are loaded have passed their check, and so have the standard ones. -/
theorem check_of_loadSettings {path : Option String} {settings : Settings}
    (loaded : (s.loadSettings path).run.run w = (.ok settings, w')) :
    settings.check = .ok () := by
  cases path with
  | none =>
    cases loaded
    rfl
  | some path =>
    rw [run_loadSettings rfl] at loaded
    exact settingsOf_eq_ok (congrArg Prod.fst loaded)

end LoadSettings

end EvmInspect.Command
