import EvmInspect.Proofs.Abi.Registrations
import EvmInspect.Trace.Revert

/-!
# What the reason for a revert depends on

Revert data that has the selector of a standard error, or is too short to have one, speaks for
itself (`SelfContained`): nothing is looked up, so what a contract declares cannot change how it is
read, not even an error under one of these selectors. Of a registry all other data only asks for one
thing, the error that the contract itself declares under the selector (`decodeRevert_congr`). Of all
that was registered this is a matter of the last contract at its place (`Declares`), so two
registries that agree on it give the same reason, whatever else they hold
(`revert_depends_on_declared_error`).
-/

namespace EvmInspect.Trace

/-- Data that is read without a registry: it is too short for a selector, or the selector is that
of a standard error. -/
def SelfContained (data : Bytes) : Prop :=
  data.length < 4 ∨ data.take 4 = errorSelector ∨ data.take 4 = panicSelector

instance (data : Bytes) : Decidable (SelfContained data) :=
  inferInstanceAs (Decidable (_ ∨ _ ∨ _))

/-- The contract that was registered last at an address of a chain declares an error under a
selector; of several under one selector the last counts. A contract being made has no address and
declares nothing. -/
def Declares (history : List Abi.Registration) (chain : UInt64) (contract : Option Address)
    (selector : Abi.Selector) (item : Abi.CustomError) : Prop :=
  ∃ address, contract = some address ∧
    ∃ c, Abi.Current history (chain, address) c ∧ Abi.errorKind.IsLast selector c.contract item

/-- Nothing is known of a revert but its data, which the message shows in full. -/
structure DecodedError.Unread (error : DecodedError) (data : Bytes) : Prop where
  decoded : error.isDecoded = false
  standard : error.isStandard = false
  item : error.error = none
  parameters : error.parameters = []
  message : error.message = "unknown error " ++ Hex.encode data

/-! ## One revert -/

section Revert

variable {registry : Abi.Registry} {chain : UInt64} {contract : Option Address} {data : Bytes}

theorem standardError?_eq_none_iff {selector : Abi.Selector} {body : Bytes} :
    standardError? selector body = none ↔ selector ≠ errorSelector ∧ selector ≠ panicSelector := by
  unfold standardError?
  by_cases error : selector = errorSelector
  · rw [if_pos error]
    refine iff_of_false ?_ fun others => others.1 error
    split <;> exact Option.some_ne_none _
  · rw [if_neg error]
    by_cases panic : selector = panicSelector
    · rw [if_pos panic]
      refine iff_of_false ?_ fun others => others.2 panic
      split <;> exact Option.some_ne_none _
    · rw [if_neg panic]
      exact iff_of_true rfl ⟨error, panic⟩

theorem rawData_decodeRevert : (decodeRevert registry chain contract data).rawData = data := by
  unfold decodeRevert
  cases Abi.Registry.splitSelector? data with
  | none => rfl
  | some parts =>
    obtain ⟨selector, body⟩ := parts
    dsimp only
    cases standardError? selector body with
    | none =>
      dsimp only
      cases contract.bind fun address => registry.error? chain address selector <;> rfl
    | some reading => cases reading <;> rfl

/-- The error that a registry knows under the selector of the data. -/
def knownError? (registry : Abi.Registry) (chain : UInt64) (contract : Option Address)
    (data : Bytes) : Option Abi.CustomError :=
  contract.bind fun address => registry.error? chain address (data.take 4)

theorem knownError?_eq_some_iff {history : List Abi.Registration} {item : Abi.CustomError} :
    knownError? (.after history) chain contract data = some item ↔
      Declares history chain contract (data.take 4) item := by
  have follows := (Abi.Registry.mirrors_after history).follows
  rw [knownError?, Option.bind_eq_some_iff]
  exact exists_congr fun address => and_congr_right fun _ => follows.error chain address _ item

/-- All that a registry has to do with a revert is the error that it knows for it. -/
theorem decodeRevert_congr {registry' : Abi.Registry} {chain' : UInt64}
    {contract' : Option Address}
    (same : knownError? registry chain contract data = knownError? registry' chain' contract' data) :
    decodeRevert registry chain contract data = decodeRevert registry' chain' contract' data := by
  unfold knownError? at same
  by_cases short : data.length < 4
  · simp only [decodeRevert, Abi.Registry.splitSelector?, if_pos short]
  · simp only [decodeRevert, Abi.Registry.splitSelector?, if_neg short, same]

/-- Self-contained data does without it. -/
theorem decodeRevert_selfContained (alone : SelfContained data) :
    decodeRevert registry chain contract data = decodeRevert .empty 0 none data := by
  by_cases short : data.length < 4
  · simp only [decodeRevert, Abi.Registry.splitSelector?, if_pos short]
  · have standard : standardError? (data.take 4) (data.drop 4) ≠ none := by
      intro none
      obtain ⟨error, panic⟩ := standardError?_eq_none_iff.mp none
      rcases alone with short' | isError | isPanic
      · exact short short'
      · exact error isError
      · exact panic isPanic
    obtain ⟨reading, read⟩ := Option.ne_none_iff_exists'.mp standard
    simp only [decodeRevert, Abi.Registry.splitSelector?, if_neg short, read]
    cases reading <;> rfl

theorem standardError?_of_not_selfContained (asks : ¬ SelfContained data) :
    standardError? (data.take 4) (data.drop 4) = none :=
  standardError?_eq_none_iff.mpr (not_or.mp (not_or.mp asks).2)

/-- Data that is not self-contained is the error that the registry knows. -/
theorem decodeRevert_of_known {item : Abi.CustomError} (asks : ¬ SelfContained data)
    (known : knownError? registry chain contract data = some item) :
    decodeRevert registry chain contract data = customError item (data.drop 4) data := by
  unfold knownError? at known
  simp only [decodeRevert, Abi.Registry.splitSelector?, if_neg (not_or.mp asks).1,
    standardError?_of_not_selfContained asks, known]

/-- Without such an error it is not read. -/
theorem decodeRevert_of_unknown (asks : ¬ SelfContained data)
    (unknown : knownError? registry chain contract data = none) :
    decodeRevert registry chain contract data = unknownError data := by
  unfold knownError? at unknown
  simp only [decodeRevert, Abi.Registry.splitSelector?, if_neg (not_or.mp asks).1,
    standardError?_of_not_selfContained asks, unknown]

theorem unread_unknownError (long : ¬ data.length < 4) : (unknownError data).Unread data where
  decoded := rfl
  standard := rfl
  item := rfl
  parameters := rfl
  message := by
    have some : data.isEmpty = false := by
      rw [List.isEmpty_eq_false_iff]
      exact List.ne_nil_of_length_pos (by omega)
    simp only [unknownError, some, Bool.false_eq_true, if_false]

end Revert

/-! ## Two registries -/

/-- What the contract that was registered last at a place declares is declared there. -/
theorem declares_iff_of_current {history : List Abi.Registration} {chain : UInt64}
    {address : Address} {selector : Abi.Selector} {item : Abi.CustomError} {c : Abi.NamedContract}
    (current : Abi.Current history (chain, address) c) :
    Declares history chain (some address) selector item ↔
      Abi.errorKind.IsLast selector c.contract item := by
  constructor
  · rintro ⟨_, ⟨⟩, c', current', last⟩
    have same := (Abi.current_iff.mp current').symm.trans (Abi.current_iff.mp current)
    cases same
    exact last
  · intro last
    exact ⟨address, rfl, c, current, last⟩

/-- The reason for a revert repeats its data. Where the data is self-contained it is the same for
any registry, chain and contract. Otherwise it depends on nothing but the error that the contract's
last registration declares under the selector: it is that error if there is one, and without one
the data is not read. -/
theorem revert_depends_on_declared_error :
    (∀ registry chain contract data,
      (decodeRevert registry chain contract data).rawData = data) ∧
    (∀ data, SelfContained data → ∀ registry registry' chain chain' contract contract',
      decodeRevert registry chain contract data = decodeRevert registry' chain' contract' data) ∧
    (∀ history history' chain chain' contract contract' data,
      (∀ item, Declares history chain contract (data.take 4) item ↔
        Declares history' chain' contract' (data.take 4) item) →
      decodeRevert (.after history) chain contract data =
        decodeRevert (.after history') chain' contract' data) ∧
    (∀ history chain contract data item, Declares history chain contract (data.take 4) item →
      SelfContained data ∨ decodeRevert (.after history) chain contract data =
        customError item (data.drop 4) data) ∧
    ∀ history chain contract data, ¬ SelfContained data →
      (∀ item, ¬ Declares history chain contract (data.take 4) item) →
      (decodeRevert (.after history) chain contract data).Unread data := by
  refine ⟨fun _ _ _ _ => rawData_decodeRevert, ?_, ?_, ?_, ?_⟩
  · intro data alone registry registry' chain chain' contract contract'
    exact (decodeRevert_selfContained alone).trans (decodeRevert_selfContained alone).symm
  · intro history history' chain chain' contract contract' data same
    refine decodeRevert_congr (Option.ext fun item => ?_)
    exact knownError?_eq_some_iff.trans ((same item).trans knownError?_eq_some_iff.symm)
  · intro history chain contract data item declares
    refine or_iff_not_imp_left.mpr fun asks => ?_
    exact decodeRevert_of_known asks (knownError?_eq_some_iff.mpr declares)
  · intro history chain contract data asks absent
    have unknown : knownError? (.after history) chain contract data = none :=
      Option.eq_none_iff_forall_ne_some.mpr fun item known =>
        absent item (knownError?_eq_some_iff.mp known)
    rw [decodeRevert_of_unknown asks unknown]
    exact unread_unknownError (not_or.mp asks).1

/-- An error of a vault, with the address that is refused. -/
def refused : Abi.CustomError where
  name := "Refused"
  inputs := [.mk "who" "address" [] false]

/-- The registration of a contract with one error. -/
def refusing (place : Abi.Place) (name : Option String) : Abi.Registration :=
  .contract place name (.given (.ofItems [.error refused]) (Abi.Contract.keyed_ofItems _))

theorem errors_refusal :
    Abi.errorKind.items (.ofItems [.error refused]) = [(refused.selector, refused)] := by
  simp only [Abi.errorKind, Abi.Contract.ofItems, List.filterMap_cons, List.filterMap_nil,
    List.mergeSort_singleton, List.map_cons, List.map_nil]

/-- A contract is registered alone, and again under another name where another contract was before
and where its error is known elsewhere too. Its error is read in the same way, a contract being made
has none, and a standard error needs no contract. -/
theorem refusal_is_read_alike :
    let data := refused.selector ++ [1, 2, 3]
    let one := [refusing (1, default) none]
    let more := [.contract (1, default) none (.given (.ofItems []) (Abi.Contract.keyed_ofItems _)),
      refusing (1, default) (some "Vault"), .function ⟨"refuse", [], [], .pure⟩,
      refusing (2, default) none]
    decodeRevert (.after one) 1 (some default) data =
        decodeRevert (.after more) 1 (some default) data ∧
      (SelfContained data ∨ decodeRevert (.after one) 1 (some default) data =
        customError refused [1, 2, 3] data) ∧
      decodeRevert (.after one) 1 (some default) errorSelector =
        decodeRevert (.after more) 2 none errorSelector ∧
      (decodeRevert (.after more) 1 none [1, 2, 3, 4]).Unread [1, 2, 3, 4] := by
  intro data one more
  obtain ⟨_, alone, same, read, unread⟩ := revert_depends_on_declared_error
  have size : refused.selector.length = 4 := by
    rw [Abi.CustomError.selector, List.length_take, Hash.length_eq]
    rfl
  have first : Abi.Current one (1, default) ⟨none, .ofItems [.error refused]⟩ :=
    Abi.current_iff.mpr rfl
  have last : Abi.Current more (1, default) ⟨some "Vault", .ofItems [.error refused]⟩ :=
    Abi.current_iff.mpr rfl
  have declares : Declares one 1 (some default) (data.take 4) refused := by
    refine (declares_iff_of_current first).mpr ⟨[], [], ?_, ?_, List.forall_mem_nil _⟩
    · rw [errors_refusal]
      rfl
    · exact (List.take_left' size).symm
  have behind : data.drop 4 = [1, 2, 3] := List.drop_left' size
  have reading := read _ _ _ _ _ declares
  rw [behind] at reading
  refine ⟨same _ _ _ _ _ _ _ fun item => ?_, reading, alone _ (.inr (.inl rfl)) _ _ _ _ _ _, ?_⟩
  · exact (declares_iff_of_current first).trans (declares_iff_of_current last).symm
  · refine unread _ _ _ _ (by decide) ?_
    rintro item ⟨_, ⟨⟩, _⟩

end EvmInspect.Trace
