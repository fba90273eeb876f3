import EvmInspect.Abi.Registry

/-!
# The names in a registry

Whatever holds of all names that a registry knows holds of those that it is asked for
(`Registry.NamesAre`). What is read from an ABI has only identifiers for names, or none
(`Contract.namesAre_ofJson?`); just the name that a contract is registered with may be any text
(`Registry.NamesAre.registerText?`).
-/

namespace EvmInspect.Abi

variable {good : String → Prop}

/-- An item's name is good, and so are those of its parameters. -/
structure NamesAre (good : String → Prop) (name : String) (inputs : List Param) : Prop where
  name : good name
  inputs : ∀ p ∈ inputs, good p.name

theorem NamesAre.mono {better : String → Prop} (imp : ∀ name, good name → better name)
    {name : String} {inputs : List Param} (h : NamesAre good name inputs) :
    NamesAre better name inputs :=
  ⟨imp name h.name, fun p mem => imp p.name (h.inputs p mem)⟩

structure Contract.NamesAre (good : String → Prop) (c : Contract) : Prop where
  functions : ∀ f ∈ c.functions, Abi.NamesAre good f.2.name f.2.inputs
  events : ∀ e ∈ c.events, Abi.NamesAre good e.2.name e.2.inputs
  errors : ∀ e ∈ c.errors, Abi.NamesAre good e.2.name e.2.inputs

/-- All names in a registry are good: those of contracts, and those of items and of their
parameters. -/
structure Registry.NamesAre (good : String → Prop) (r : Registry) : Prop where
  contractNames : ∀ c ∈ r.contracts.toList, ∀ name, c.2.name = some name → good name
  contracts : ∀ c ∈ r.contracts.toList, c.2.contract.NamesAre good
  functions : ∀ f ∈ r.functions, Abi.NamesAre good f.2.name f.2.inputs
  events : ∀ e ∈ r.events, Abi.NamesAre good e.2.name e.2.inputs

/-! ## Looking up -/

section Lookup

variable {κ α : Type} [DecidableEq κ] {key : κ} {x : α}

/-- What is found in a contract is an item of it. -/
theorem Contract.exists_of_lastOf {known : Option Contract} {items : Contract → List (κ × α)}
    (found : (known.bind fun c => lastOf key (items c)) = some x) :
    ∃ c, known = some c ∧ ∃ e ∈ items c, e.2 = x := by
  obtain ⟨c, here, last⟩ := Option.bind_eq_some_iff.mp found
  obtain ⟨e, there, rfl⟩ := Option.map_eq_some_iff.mp last
  exact ⟨c, here, e, List.mem_reverse.mp (List.mem_of_find?_eq_some there), rfl⟩

theorem Registry.exists_of_firstOf {items : List (κ × α)} (found : firstOf key items = some x) :
    ∃ e ∈ items, e.2 = x := by
  obtain ⟨e, first, rfl⟩ := Option.map_eq_some_iff.mp found
  exact ⟨e, List.mem_of_find?_eq_some first, rfl⟩

end Lookup

namespace Registry.NamesAre

variable {r : Registry} (h : r.NamesAre good) {chain : UInt64} {address : Address}

include h

theorem name {name : String} (known : r.name? chain address = some name) : good name := by
  obtain ⟨c, registered, named⟩ := Option.bind_eq_some_iff.mp known
  exact h.contractNames _ (KeyMap.get?_eq_some_iff.mp registered) name named

theorem contract {c : Contract} (known : r.contract? chain address = some c) :
    c.NamesAre good := by
  obtain ⟨named, registered, rfl⟩ := Option.map_eq_some_iff.mp known
  exact h.contracts _ (KeyMap.get?_eq_some_iff.mp registered)

theorem function {data : Bytes} {f : Function} (known : r.function? chain address data = some f) :
    Abi.NamesAre good f.name f.inputs := by
  unfold function? at known
  cases split : splitSelector? data with
  | none =>
    rw [split] at known
    cases known
  | some front =>
    rw [split] at known
    rcases Option.or_eq_some_iff.mp known with own | ⟨_, common⟩
    · obtain ⟨c, here, e, mem, rfl⟩ := Contract.exists_of_lastOf own
      exact (h.contract here).functions e mem
    · obtain ⟨e, mem, rfl⟩ := exists_of_firstOf common
      exact h.functions e mem

theorem event {topic : Hash} {e : Event} (known : r.event? chain address topic = some e) :
    Abi.NamesAre good e.name e.inputs := by
  rcases Option.or_eq_some_iff.mp known with own | ⟨_, common⟩
  · obtain ⟨c, here, e, mem, rfl⟩ := Contract.exists_of_lastOf own
    exact (h.contract here).events e mem
  · obtain ⟨e, mem, rfl⟩ := exists_of_firstOf common
    exact h.events e mem

theorem error {selector : Selector} {e : CustomError}
    (known : r.error? chain address selector = some e) : Abi.NamesAre good e.name e.inputs := by
  obtain ⟨c, here, e, mem, rfl⟩ := Contract.exists_of_lastOf known
  exact (h.contract here).errors e mem

end Registry.NamesAre

/-! ## Reading -/

/-- A name as an ABI may give it: an identifier, or nothing. -/
def IsItemName (name : String) : Prop := name.isEmpty ∨ TypeText.isName name.toList

theorem isNameChar_of_isItemName {name : String} (h : IsItemName name) {c : Char}
    (mem : c ∈ name.toList) : TypeText.isNameChar c = true := by
  rcases h with none | identifier
  · rw [String.isEmpty_iff.mp none] at mem
    exact absurd mem List.not_mem_nil
  · cases spelled : name.toList with
    | nil =>
      rw [spelled] at mem
      exact absurd mem List.not_mem_nil
    | cons first rest =>
      rw [spelled] at mem identifier
      obtain ⟨start, others⟩ := (Bool.and_eq_true _ _).mp identifier
      rcases List.mem_cons.mp mem with rfl | mem
      · unfold TypeText.isNameStart at start
        unfold TypeText.isNameChar Char.isAlphanum
        simp only [Bool.or_eq_true] at start ⊢
        exact start.imp_left (Or.imp_left Or.inl)
      · exact List.all_eq_true.mp others c mem

open Json

theorem isItemName_readName {document : Json} {name : String}
    (read : readName document = some name) : IsItemName name := by
  unfold readName at read
  split at read
  · split at read
    next proper =>
      cases read
      exact (Bool.or_eq_true _ _).mp proper
    next => cases read
  · cases read

theorem isItemName_required {field : Option Json} {name : String}
    (read : required readName field = some name) : IsItemName name := by
  cases field with
  | none => cases read
  | some document => exact isItemName_readName read

theorem isItemName_makeParam {inEvent : Bool} {name typeText indexed internal : Option Json}
    {components : List Param} {p : Param}
    (made : makeParam inEvent name typeText indexed internal components = some p) :
    IsItemName p.name := by
  obtain ⟨s, named, made⟩ := Option.bind_eq_some_iff.mp made
  obtain ⟨_, _, made⟩ := Option.bind_eq_some_iff.mp made
  obtain ⟨_, _, made⟩ := Option.bind_eq_some_iff.mp made
  obtain ⟨_, _, made⟩ := Option.bind_eq_some_iff.mp made
  split at made
  · cases made
    cases name with
    | none =>
      cases named
      exact .inl rfl
    | some document => exact isItemName_readName named
  · cases made

theorem isItemName_read {inEvent : Bool} {document : Json} {p : Param}
    (read : Param.read inEvent document = some p) : IsItemName p.name := by
  unfold Param.read at read
  split at read
  · simp only [Option.bind_eq_bind, Option.bind_eq_some_iff] at read
    obtain ⟨_, _, _, _, _, _, _, _, _, _, _, _, made⟩ := read
    exact isItemName_makeParam made
  · exact isItemName_makeParam read
  · exact isItemName_makeParam read
  · exact isItemName_makeParam read
  · obtain ⟨_, _, made⟩ := Option.bind_eq_some_iff.mp read
    exact isItemName_makeParam made
  · cases read

theorem isItemName_readAll {inEvent : Bool} {documents : List Json} {ps : List Param}
    (read : Param.readAll inEvent documents = some ps) : ∀ p ∈ ps, IsItemName p.name := by
  induction documents generalizing ps with
  | nil =>
    cases read
    exact fun _ mem => absurd mem List.not_mem_nil
  | cons document rest ih =>
    unfold Param.readAll at read
    obtain ⟨first, readFirst, read⟩ := Option.bind_eq_some_iff.mp read
    obtain ⟨others, readOthers, read⟩ := Option.bind_eq_some_iff.mp read
    cases read
    intro p mem
    rcases List.mem_cons.mp mem with rfl | mem
    · exact isItemName_read readFirst
    · exact ih readOthers p mem

theorem isItemName_requiredInputs {inEvent : Bool} {field : Option Json} {ps : List Param}
    (read : required (Param.readList inEvent) field = some ps) : ∀ p ∈ ps, IsItemName p.name := by
  cases field with
  | none => cases read
  | some document =>
    cases document with
    | array items => exact isItemName_readAll read
    | _ => cases read

/-- What an item is read with: the names that it and its parameters have. -/
def Item.NamesAre (good : String → Prop) : Item → Prop
  | .function f => Abi.NamesAre good f.name f.inputs
  | .event e => Abi.NamesAre good e.name e.inputs
  | .error e => Abi.NamesAre good e.name e.inputs
  | _ => True

theorem namesAre_readFunction {document : Json} {f : Function}
    (read : Function.read document = some f) : NamesAre IsItemName f.name f.inputs := by
  obtain ⟨fields, _, read⟩ := Option.bind_eq_some_iff.mp read
  split at read
  · simp only [Option.bind_eq_bind, Option.bind_eq_some_iff] at read
    obtain ⟨name, readName, inputs, readInputs, _, _, _, _, made⟩ := read
    cases made
    exact ⟨isItemName_required readName, isItemName_requiredInputs readInputs⟩
  · cases read

theorem namesAre_readEvent {document : Json} {e : Event}
    (read : Event.read document = some e) : NamesAre IsItemName e.name e.inputs := by
  obtain ⟨fields, _, read⟩ := Option.bind_eq_some_iff.mp read
  split at read
  · simp only [Option.bind_eq_bind, Option.bind_eq_some_iff] at read
    obtain ⟨name, readName, inputs, readInputs, _, _, made⟩ := read
    cases made
    exact ⟨isItemName_required readName, isItemName_requiredInputs readInputs⟩
  · cases read

theorem namesAre_readError {document : Json} {e : CustomError}
    (read : CustomError.read document = some e) : NamesAre IsItemName e.name e.inputs := by
  obtain ⟨fields, _, read⟩ := Option.bind_eq_some_iff.mp read
  split at read
  · simp only [Option.bind_eq_bind, Option.bind_eq_some_iff] at read
    obtain ⟨name, readName, inputs, readInputs, made⟩ := read
    cases made
    exact ⟨isItemName_required readName, isItemName_requiredInputs readInputs⟩
  · cases read

/-- An item that stands in an object is read by the kind that it is marked with. -/
theorem namesAre_readObject {document : Json} {item : Item}
    (read : Item.readObject document = some item) : item.NamesAre IsItemName := by
  obtain ⟨fields, _, read⟩ := Option.bind_eq_some_iff.mp read
  split at read
  case h_2 => cases read
  obtain ⟨kind, _, read⟩ := Option.bind_eq_some_iff.mp read
  split at read
  · obtain ⟨f, readFunction, rfl⟩ := Option.map_eq_some_iff.mp read
    exact namesAre_readFunction readFunction
  split at read
  · obtain ⟨e, readEvent, rfl⟩ := Option.map_eq_some_iff.mp read
    exact namesAre_readEvent readEvent
  split at read
  · obtain ⟨e, readError, rfl⟩ := Option.map_eq_some_iff.mp read
    exact namesAre_readError readError
  split at read
  · simp only [Option.bind_eq_bind, Option.bind_eq_some_iff] at read
    obtain ⟨_, _, _, _, made⟩ := read
    cases made
    trivial
  split at read
  · obtain ⟨_, _, rfl⟩ := Option.map_eq_some_iff.mp read
    trivial
  split at read
  · obtain ⟨_, _, rfl⟩ := Option.map_eq_some_iff.mp read
    trivial
  · cases read

theorem namesAre_readItem {document : Json} {item : Item}
    (read : Item.read document = some item) : item.NamesAre IsItemName := by
  unfold Item.read at read
  split at read
  · split at read
    · obtain ⟨e, readEvent, rfl⟩ := Option.map_eq_some_iff.mp read
      exact namesAre_readEvent readEvent
    split at read
    · obtain ⟨e, readError, rfl⟩ := Option.map_eq_some_iff.mp read
      exact namesAre_readError readError
    · cases read
  · exact namesAre_readObject read

/-- What is read as a list has been read item by item. -/
theorem of_mem_readList {α : Type} {read : Reader α} {holds : α → Prop}
    (each : ∀ document x, read document = some x → holds x) {document : Json} {xs : List α}
    (all : Json.readList read document = some xs) : ∀ x ∈ xs, holds x := by
  cases document with
  | array items =>
    replace all : items.mapM read = some xs := all
    induction items generalizing xs with
    | nil =>
      cases all
      exact fun _ mem => absurd mem List.not_mem_nil
    | cons item rest ih =>
      simp only [List.mapM_cons, Option.bind_eq_bind, Option.bind_eq_some_iff] at all
      obtain ⟨first, readFirst, others, readOthers, made⟩ := all
      cases made
      intro x mem
      rcases List.mem_cons.mp mem with rfl | mem
      · exact each item x readFirst
      · exact ih readOthers x mem
  | _ => cases all

namespace Contract

/-- The items of one kind come from the list that is sorted, each with its key. -/
theorem exists_of_mem_sorted {α β : Type} {pick : Item → Option α} {le : α → α → Bool}
    {entry : α → β} {items : List Item} {e : β}
    (mem : e ∈ ((items.filterMap pick).mergeSort le).map entry) :
    ∃ item ∈ items, ∃ x, pick item = some x ∧ entry x = e := by
  obtain ⟨x, sorted, rfl⟩ := List.mem_map.mp mem
  obtain ⟨item, member, kept⟩ := List.mem_filterMap.mp (List.mem_mergeSort.mp sorted)
  exact ⟨item, member, x, kept, rfl⟩

/-- Sorting items into a contract keeps their names. -/
theorem namesAre_ofItems {items : List Item} (names : ∀ item ∈ items, item.NamesAre good) :
    (ofItems items).NamesAre good where
  functions f mem := by
    obtain ⟨item, member, _, kept, rfl⟩ := exists_of_mem_sorted mem
    cases item with
    | function =>
      cases kept
      exact names _ member
    | _ => cases kept
  events e mem := by
    obtain ⟨item, member, _, kept, rfl⟩ := exists_of_mem_sorted mem
    cases item with
    | event =>
      cases kept
      exact names _ member
    | _ => cases kept
  errors e mem := by
    obtain ⟨item, member, _, kept, rfl⟩ := exists_of_mem_sorted mem
    cases item with
    | error =>
      cases kept
      exact names _ member
    | _ => cases kept

/-- An ABI has no other names than identifiers. -/
theorem namesAre_ofJson? {document : Json} {c : Contract} (read : ofJson? document = some c) :
    c.NamesAre IsItemName := by
  obtain ⟨items, readItems, read⟩ := Option.bind_eq_some_iff.mp read
  dsimp only at read
  split at read
  · cases read
    exact namesAre_ofItems (of_mem_readList (fun _ _ => namesAre_readItem) readItems)
  · cases read

theorem NamesAre.mono {better : String → Prop} (imp : ∀ name, good name → better name)
    {c : Contract} (h : c.NamesAre good) : c.NamesAre better where
  functions f mem := (h.functions f mem).mono imp
  events e mem := (h.events e mem).mono imp
  errors e mem := (h.errors e mem).mono imp

end Contract

namespace Registry.NamesAre

theorem empty : Registry.empty.NamesAre good where
  contractNames _ mem := absurd mem List.not_mem_nil
  contracts _ mem := absurd mem List.not_mem_nil
  functions _ mem := absurd mem List.not_mem_nil
  events _ mem := absurd mem List.not_mem_nil

theorem register {r : Registry} (h : r.NamesAre good) (chain : UInt64) (address : Address)
    {name : Option String} (own : ∀ s, name = some s → good s) {c : Contract}
    (items : c.NamesAre good) : (r.register chain address name c).NamesAre good where
  contractNames e mem := by
    rcases KeyMap.mem_insertIn mem with rfl | old
    · exact own
    · exact h.contractNames e old
  contracts e mem := by
    rcases KeyMap.mem_insertIn mem with rfl | old
    · exact items
    · exact h.contracts e old
  functions f mem := by
    rcases List.mem_append.mp mem with old | new
    · exact h.functions f old
    · exact items.functions f (List.mem_reverse.mp new)
  events e mem := by
    rcases List.mem_append.mp mem with old | new
    · exact h.events e old
    · exact items.events e (List.mem_reverse.mp new)

/-- A contract that is registered with the text of its ABI brings no other names than
identifiers and its own. -/
theorem registerText? {r registered : Registry} (h : r.NamesAre good)
    (proper : ∀ s, IsItemName s → good s) {chain : UInt64} {address : Address}
    {name : Option String} (own : ∀ s, name = some s → good s) {text : String}
    (done : r.registerText? chain address name text = some registered) :
    registered.NamesAre good := by
  obtain ⟨c, read, rfl⟩ := Option.map_eq_some_iff.mp done
  obtain ⟨document, _, readItems⟩ := Option.bind_eq_some_iff.mp read
  exact h.register chain address own ((Contract.namesAre_ofJson? readItems).mono proper)

end Registry.NamesAre

end EvmInspect.Abi
