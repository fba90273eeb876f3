import EvmInspect.Abi.Registry
import Mathlib.Data.List.Induction
import Mathlib.Data.List.Nodup

/-!
# Registries and what was registered

A registry is filled by registrations, some of which fail. Every look-up is settled by their
history alone (`Registry.Follows`): by the last contract at a place, and for functions and events
that it does not have, by the earliest registration anywhere that provided the key. Two opposite
rules meet in one registration, so the history is followed by two searches, one from its end and
one from its start (`Mirrors`).

A contract's items join the common index key by key. In which order that happens is not settled
by the history, and no look-up depends on it (`Registry.Builds`).
-/

namespace EvmInspect.Abi

/-- Where a contract is registered. -/
abbrev Place := UInt64 × Address

/-- Each item of a contract stands under its own selector or topic. -/
structure Contract.Keyed (c : Contract) : Prop where
  functions : ∀ e ∈ c.functions, e.1 = e.2.selector
  events : ∀ e ∈ c.events, e.1 = e.2.topic
  errors : ∀ e ∈ c.errors, e.1 = e.2.selector

theorem Contract.keyed_ofItems (items : List Item) : (ofItems items).Keyed where
  functions e mem := by
    obtain ⟨f, _, rfl⟩ := List.mem_map.mp mem
    rfl
  events e mem := by
    obtain ⟨f, _, rfl⟩ := List.mem_map.mp mem
    rfl
  errors e mem := by
    obtain ⟨f, _, rfl⟩ := List.mem_map.mp mem
    rfl

theorem Contract.keyed_ofJson? {document : Json} {c : Contract}
    (read : ofJson? document = some c) : c.Keyed := by
  obtain ⟨items, _, read⟩ := Option.bind_eq_some_iff.mp read
  dsimp only at read
  split at read
  · cases read
    exact keyed_ofItems items
  · cases read

theorem Registry.keyed_contractOfFile? {text : String} {c : Contract}
    (read : contractOfFile? text = some c) : c.Keyed := by
  unfold contractOfFile? at read
  split at read
  · cases read
  · exact Contract.keyed_ofJson? read

/-! ## Registrations -/

/-- What a contract is registered with. -/
inductive AbiSource where
  | given (c : Contract) (keyed : c.Keyed)
  | text (text : String)
  /-- A file, with the text in it if it can be read. -/
  | file (text : Option String)

/-- The contract that is registered, unless the registration fails. -/
def AbiSource.contract? : AbiSource → Option Contract
  | given c _ => some c
  | text t => Contract.ofText? t
  | file t => t.bind Registry.contractOfFile?

theorem AbiSource.keyed {source : AbiSource} {c : Contract} (h : source.contract? = some c) :
    c.Keyed := by
  cases source with
  | given c' keyed =>
    cases h
    exact keyed
  | text t =>
    obtain ⟨_, _, read⟩ := Option.bind_eq_some_iff.mp h
    exact Contract.keyed_ofJson? read
  | file t =>
    obtain ⟨_, _, read⟩ := Option.bind_eq_some_iff.mp h
    exact Registry.keyed_contractOfFile? read

/-- One registration: of a contract, or of a function or an event alone. -/
inductive Registration where
  | contract (place : Place) (name : Option String) (source : AbiSource)
  | function (f : Function)
  | event (e : Event)

/-- The contract that a registration enters, and where. -/
def Registration.contract? : Registration → Option (Place × NamedContract)
  | contract place name source => source.contract?.map fun c => (place, ⟨name, c⟩)
  | _ => none

theorem Registration.keyed {reg : Registration} {place : Place} {c : NamedContract}
    (h : reg.contract? = some (place, c)) : c.contract.Keyed := by
  cases reg with
  | contract place' name source =>
    obtain ⟨c', found, made⟩ := Option.map_eq_some_iff.mp h
    cases made
    exact AbiSource.keyed found
  | function f => cases h
  | event e => cases h

namespace Registry

/-- The registry after a registration, unless that fails. -/
def attempt? (r : Registry) : Registration → Option Registry
  | .contract (chain, address) name source =>
    match source with
    | .given c _ => some (r.register chain address name c)
    | .text t => r.registerText? chain address name t
    | .file t => (t.bind contractOfFile?).map (r.register chain address name)
  | .function f => some (r.registerFunction f)
  | .event e => some (r.registerEvent e)

/-- The registry after a registration; one that fails leaves it as it is. -/
def next (r : Registry) (reg : Registration) : Registry := (r.attempt? reg).getD r

/-- The registry that registrations one after the other lead to. -/
def after (history : List Registration) : Registry := history.foldl next .empty

theorem after_concat (history : List Registration) (reg : Registration) :
    after (history ++ [reg]) = (after history).next reg := by
  simp only [after, List.foldl_append, List.foldl_cons, List.foldl_nil]

/-- However a contract's ABI is given, the contract is registered if there is one. -/
theorem attempt?_contract (r : Registry) (place : Place) (name : Option String)
    (source : AbiSource) : r.attempt? (.contract place name source) =
      source.contract?.map (r.register place.1 place.2 name) := by
  cases source <;> rfl

end Registry

/-! ## The law of look-ups -/

/-- A kind of item that a contract has: the key of an item, and the items with their keys. -/
structure Kind (κ α : Type) where
  key : α → κ
  items : Contract → List (κ × α)
  keyed : ∀ {c : Contract}, c.Keyed → ∀ e ∈ items c, e.1 = key e.2

/-- A kind of item that may also be registered alone. -/
structure CommonKind (κ α : Type) extends Kind κ α where
  alone : Registration → Option α
  alone_contract : ∀ place name source, alone (.contract place name source) = none

def functionKind : CommonKind Selector Function where
  key := Function.selector
  items := Contract.functions
  keyed h := h.functions
  alone
    | .function f => some f
    | _ => none
  alone_contract _ _ _ := rfl

def eventKind : CommonKind Hash Event where
  key := Event.topic
  items := Contract.events
  keyed h := h.events
  alone
    | .event e => some e
    | _ => none
  alone_contract _ _ _ := rfl

def errorKind : Kind Selector CustomError where
  key := CustomError.selector
  items := Contract.errors
  keyed h := h.errors

variable {κ α : Type}

/-- The last item of a contract that has a key. -/
def Kind.IsLast (kind : Kind κ α) (key : κ) (c : Contract) (x : α) : Prop :=
  ∃ before after, (kind.items c).map Prod.snd = before ++ x :: after ∧ kind.key x = key ∧
    ∀ y ∈ after, kind.key y ≠ key

/-- The contract at a place: what the last registration there that did not fail entered. -/
def Current (history : List Registration) (place : Place) (c : NamedContract) : Prop :=
  ∃ before reg after, history = before ++ reg :: after ∧ reg.contract? = some (place, c) ∧
    ∀ other ∈ after, ∀ c', other.contract? ≠ some (place, c')

namespace CommonKind

variable (kind : CommonKind κ α) (key : κ)

/-- An item that a registration, of a contract anywhere or of the item alone, provides under a
key. -/
def Provides (reg : Registration) (x : α) : Prop :=
  (∃ place c, reg.contract? = some (place, c) ∧ kind.IsLast key c.contract x) ∨
    (kind.alone reg = some x ∧ kind.key x = key)

/-- The item provided by the earliest registration that provides one under a key. -/
def Earliest (history : List Registration) (x : α) : Prop :=
  ∃ before reg after, history = before ++ reg :: after ∧ kind.Provides key reg x ∧
    ∀ other ∈ before, ∀ y, ¬ kind.Provides key other y

/-- The item of the contract at a place. -/
def Own (history : List Registration) (place : Place) (x : α) : Prop :=
  ∃ c, Current history place c ∧ kind.IsLast key c.contract x

/-- The item that a key means at a place: the contract's own, and only if it has none the one
that was provided first. -/
def Resolves (history : List Registration) (place : Place) (x : α) : Prop :=
  kind.Own key history place x ∨
    ((∀ y, ¬ kind.Own key history place y) ∧ kind.Earliest key history x)

end CommonKind

/-- Every look-up in a registry is settled by a history of registrations. -/
structure Registry.Follows (r : Registry) (history : List Registration) : Prop where
  function : ∀ chain address data f, r.function? chain address data = some f ↔
    4 ≤ data.length ∧ functionKind.Resolves (data.take 4) history (chain, address) f
  event : ∀ chain address topic e, r.event? chain address topic = some e ↔
    eventKind.Resolves topic history (chain, address) e
  error : ∀ chain address selector e, r.error? chain address selector = some e ↔
    ∃ c, Current history (chain, address) c ∧ errorKind.IsLast selector c.contract e
  name : ∀ chain address name, r.name? chain address = some name ↔
    ∃ c, Current history (chain, address) c ∧ c.name = some name

/-! ## The law as two searches -/

section Searches

variable [DecidableEq κ]

theorem Kind.isLast_iff (kind : Kind κ α) {key : κ} {c : Contract} (keyed : c.Keyed) {x : α} :
    kind.IsLast key c x ↔ Contract.lastOf key (kind.items c) = some x := by
  have own := kind.keyed keyed
  unfold Kind.IsLast Contract.lastOf
  rw [Option.map_eq_some_iff]
  constructor
  · rintro ⟨before, after, split, here, later⟩
    obtain ⟨first, rest, items, rfl, rest_eq⟩ := List.map_eq_append_iff.mp split
    obtain ⟨e, last, rfl, rfl, rfl⟩ := List.map_eq_cons_iff.mp rest_eq
    refine ⟨e, List.find?_eq_some_iff_append.mpr ⟨?_, last.reverse, first.reverse, ?_, ?_⟩, rfl⟩
    · rw [own e (by simp [items]), here]
      exact decide_eq_true rfl
    · simp [items]
    · intro y mem
      have mem := List.mem_reverse.mp mem
      rw [own y (by simp [items, mem])]
      simpa using later y.2 (List.mem_map_of_mem mem)
  · rintro ⟨e, found, rfl⟩
    obtain ⟨here, later, before, split, others⟩ := List.find?_eq_some_iff_append.mp found
    have whole : kind.items c = before.reverse ++ e :: later.reverse := by
      rw [← List.reverse_reverse (kind.items c), split]
      simp
    refine ⟨before.reverse.map Prod.snd, later.reverse.map Prod.snd, ?_, ?_, ?_⟩
    · simp [whole]
    · rw [← own e (by simp [whole])]
      exact of_decide_eq_true here
    · intro y mem
      obtain ⟨e', there, rfl⟩ := List.mem_map.mp mem
      have differs := others e' (List.mem_reverse.mp there)
      rw [← own e' (by simp [whole, List.mem_reverse.mp there])]
      simpa using differs

/-- The contract that a registration enters at a place. -/
def Registration.contractAt? (place : Place) (reg : Registration) : Option NamedContract :=
  reg.contract?.bind fun e => if e.1 = place then some e.2 else none

theorem Registration.contractAt?_eq_some_iff {place : Place} {reg : Registration}
    {c : NamedContract} : reg.contractAt? place = some c ↔ reg.contract? = some (place, c) := by
  rw [contractAt?, Option.bind_eq_some_iff]
  constructor
  · rintro ⟨⟨place', c'⟩, found, here⟩
    split at here
    next same =>
      cases here
      cases same
      exact found
    next => cases here
  · intro found
    exact ⟨_, found, if_pos rfl⟩

theorem current_iff {history : List Registration} {place : Place} {c : NamedContract} :
    Current history place c ↔ history.reverse.findSome? (·.contractAt? place) = some c := by
  rw [List.findSome?_eq_some_iff]
  constructor
  · rintro ⟨before, reg, after, rfl, here, later⟩
    refine ⟨after.reverse, reg, before.reverse, by simp, ?_, ?_⟩
    · exact Registration.contractAt?_eq_some_iff.mpr here
    · intro other mem
      apply Option.eq_none_iff_forall_ne_some.mpr
      intro c' found
      exact later other (List.mem_reverse.mp mem) c' (Registration.contractAt?_eq_some_iff.mp found)
  · rintro ⟨after, reg, before, split, here, later⟩
    refine ⟨before.reverse, reg, after.reverse, ?_, ?_, ?_⟩
    · rw [← List.reverse_reverse history, split]
      simp
    · exact Registration.contractAt?_eq_some_iff.mp here
    · intro other mem c' found
      have none := later other (List.mem_reverse.mp mem)
      rw [Registration.contractAt?_eq_some_iff.mpr found] at none
      cases none

namespace CommonKind

variable (kind : CommonKind κ α) (key : κ)

/-- The item that a registration provides under a key. -/
def provides? (reg : Registration) : Option α :=
  match reg.contract? with
  | some (_, c) => Contract.lastOf key (kind.items c.contract)
  | none => (kind.alone reg).filter fun x => decide (kind.key x = key)

variable {kind key}

/-- An item that is registered alone is provided under its own key. -/
theorem provides?_alone {reg : Registration} {x : α} (none : reg.contract? = none)
    (alone : kind.alone reg = some x) :
    kind.provides? key reg = if kind.key x = key then some x else Option.none := by
  rw [provides?, none, alone]
  by_cases own : kind.key x = key <;> simp [Option.filter, own]

theorem provides?_eq_some_iff {reg : Registration} {x : α} :
    kind.provides? key reg = some x ↔ kind.Provides key reg x := by
  unfold provides? Provides
  cases found : reg.contract? with
  | none => simp [Option.filter_eq_some_iff]
  | some entry =>
    obtain ⟨place, c⟩ := entry
    have none_alone : kind.alone reg = none := by
      cases reg with
      | contract place' name source => exact kind.alone_contract place' name source
      | function f => cases found
      | event e => cases found
    rw [none_alone, ← kind.isLast_iff (Registration.keyed found)]
    constructor
    · intro last
      exact .inl ⟨place, c, rfl, last⟩
    · rintro (⟨_, _, same, last⟩ | ⟨alone, _⟩)
      · cases same
        exact last
      · cases alone

theorem earliest_iff {history : List Registration} {x : α} :
    kind.Earliest key history x ↔ history.findSome? (kind.provides? key) = some x := by
  rw [List.findSome?_eq_some_iff]
  simp only [provides?_eq_some_iff, Option.eq_none_iff_forall_ne_some, ne_eq]
  exact Iff.rfl

theorem own_iff {history : List Registration} {place : Place} {x : α} :
    kind.Own key history place x ↔
      ((history.reverse.findSome? (·.contractAt? place)).bind fun c =>
        Contract.lastOf key (kind.items c.contract)) = some x := by
  rw [Option.bind_eq_some_iff]
  apply exists_congr
  intro c
  rw [← current_iff]
  apply and_congr_right
  intro current
  obtain ⟨_, reg, _, _, found, _⟩ := current
  exact kind.isLast_iff (Registration.keyed found)

/-- What a key means at a place is found by a search from the end of the history, and then by
one from its start. -/
theorem resolves_iff {history : List Registration} {place : Place} {x : α} :
    kind.Resolves key history place x ↔
      ((history.reverse.findSome? (·.contractAt? place)).bind fun c =>
        Contract.lastOf key (kind.items c.contract)).or
          (history.findSome? (kind.provides? key)) = some x := by
  rw [Option.or_eq_some_iff, Option.eq_none_iff_forall_ne_some]
  simp only [Resolves, own_iff, earliest_iff, ne_eq]

end CommonKind

end Searches

/-! ## Registering keeps to the history -/

namespace Registry

section FirstOf

variable [DecidableEq κ] {key : κ}

theorem firstOf_append (items later : List (κ × α)) :
    firstOf key (items ++ later) = (firstOf key items).or (firstOf key later) := by
  simp only [firstOf, List.find?_append, Option.map_or]

theorem firstOf_reverse (items : List (κ × α)) :
    firstOf key items.reverse = Contract.lastOf key items := rfl

theorem firstOf_singleton (x : α) (own : κ) :
    firstOf key [(own, x)] = if own = key then some x else none := by
  by_cases h : own = key <;> simp [firstOf, h]

/-- An order in which the items that count of a list may be visited: each key once, with the
last of its items. -/
structure Visits (items visited : List (κ × α)) : Prop where
  distinct : (visited.map Prod.fst).Nodup
  mem_iff : ∀ key x, (key, x) ∈ visited ↔ Contract.lastOf key items = some x

theorem Visits.firstOf_eq {items visited : List (κ × α)} (h : Visits items visited) (key : κ) :
    firstOf key visited = Contract.lastOf key items := by
  apply Option.ext
  intro x
  rw [← h.mem_iff, firstOf, Option.map_eq_some_iff]
  constructor
  · rintro ⟨⟨own, _⟩, found, rfl⟩
    obtain rfl : own = key := by simpa using List.find?_some found
    exact List.mem_of_find?_eq_some found
  · intro mem
    cases found : visited.find? fun e => decide (e.1 = key) with
    | none =>
      have differs := List.find?_eq_none.mp found (key, x) mem
      simp at differs
    | some e =>
      have same : e.1 = key := by simpa using List.find?_some found
      have there := List.mem_of_find?_eq_some found
      -- two entries with one key are one entry
      have one : e = (key, x) := List.inj_on_of_nodup_map h.distinct there mem same
      exact ⟨e, rfl, by rw [one]⟩

/-- The items that count, each at the place of the last of its key. -/
def lastOnly : List (κ × α) → List (κ × α)
  | [] => []
  | e :: rest => if rest.any fun later => decide (later.1 = e.1) then lastOnly rest
    else e :: lastOnly rest

theorem lastOf_cons (e : κ × α) (rest : List (κ × α)) :
    Contract.lastOf key (e :: rest) =
      (Contract.lastOf key rest).or (if e.1 = key then some e.2 else none) := by
  by_cases h : e.1 = key <;> simp [Contract.lastOf, List.find?_append, h]

theorem lastOf_eq_none_iff {items : List (κ × α)} :
    Contract.lastOf key items = none ↔ ∀ e ∈ items, e.1 ≠ key := by
  simp [Contract.lastOf]

theorem mem_lastOnly {items : List (κ × α)} {x : α} :
    (key, x) ∈ lastOnly items ↔ Contract.lastOf key items = some x := by
  induction items with
  | nil => simp [lastOnly, Contract.lastOf]
  | cons e rest ih =>
    rw [lastOnly, lastOf_cons, Option.or_eq_some_iff, ← ih]
    split
    next again =>
      obtain ⟨later, mem, same⟩ := List.any_eq_true.mp again
      have same : later.1 = e.1 := of_decide_eq_true same
      constructor
      · exact .inl
      · rintro (there | ⟨absent, here⟩)
        · exact there
        · split at here
          next own => exact absurd (same.trans own) (lastOf_eq_none_iff.mp absent later mem)
          next => cases here
    next alone =>
      have absent : Contract.lastOf e.1 rest = none := by
        rw [lastOf_eq_none_iff]
        intro later mem same
        exact alone (List.any_eq_true.mpr ⟨later, mem, decide_eq_true same⟩)
      rw [List.mem_cons]
      constructor
      · rintro (rfl | there)
        · exact .inr ⟨absent, if_pos rfl⟩
        · exact .inl there
      · rintro (there | ⟨_, here⟩)
        · exact .inr there
        · split at here
          next own =>
            cases here
            exact .inl (by rw [← own])
          next => cases here

theorem visits_lastOnly (items : List (κ × α)) : Visits items (lastOnly items) where
  distinct := by
    induction items with
    | nil => exact List.nodup_nil
    | cons e rest ih =>
      rw [lastOnly]
      split
      next => exact ih
      next alone =>
        refine List.nodup_cons.mpr ⟨fun mem => ?_, ih⟩
        obtain ⟨later, there, same⟩ := List.mem_map.mp mem
        have counts := mem_lastOnly.mp (show (later.1, later.2) ∈ lastOnly rest from there)
        obtain ⟨e', found, _⟩ := Option.map_eq_some_iff.mp counts
        have own : e'.1 = later.1 := by simpa using List.find?_some found
        have inside := List.mem_reverse.mp (List.mem_of_find?_eq_some found)
        exact alone (List.any_eq_true.mpr ⟨e', inside, decide_eq_true (own.trans same)⟩)
  mem_iff _ _ := mem_lastOnly

end FirstOf

/-- The registry holds what the two searches find. -/
structure Mirrors (r : Registry) (history : List Registration) : Prop where
  contracts : ∀ place, r.contracts.get? place =
    history.reverse.findSome? (·.contractAt? place)
  functions : ∀ key, firstOf key r.functions = history.findSome? (functionKind.provides? key)
  events : ∀ key, firstOf key r.events = history.findSome? (eventKind.provides? key)

variable {r : Registry} {history : List Registration} {reg : Registration}

theorem Mirrors.empty : Mirrors .empty [] where
  contracts _ := rfl
  functions _ := rfl
  events _ := rfl

/-- A contract that is entered becomes the one at its place, and what the common index did not
have it has from the contract, whatever the order in which the items come. -/
theorem Mirrors.enters (h : Mirrors r history) {place : Place} {c : NamedContract}
    (found : reg.contract? = some (place, c)) {functions : List (Selector × Function)}
    {events : List (Hash × Event)}
    (functionsOf : ∀ key, firstOf key functions = Contract.lastOf key c.contract.functions)
    (eventsOf : ∀ key, firstOf key events = Contract.lastOf key c.contract.events) :
    Mirrors ⟨r.contracts.insert place c, r.functions ++ functions, r.events ++ events⟩
      (history ++ [reg]) where
  contracts place' := by
    have here : reg.contractAt? place' = if place = place' then some c else none := by
      simp only [Registration.contractAt?, found, Option.bind_some]
    simp only [List.reverse_append, List.reverse_cons, List.reverse_nil, List.nil_append,
      List.singleton_append, List.findSome?_cons, here, KeyMap.get?_insert, Rank.rank_eq_iff,
      h.contracts]
    split <;> rfl
  functions key := by
    have here : functionKind.provides? key reg = Contract.lastOf key c.contract.functions := by
      simp only [CommonKind.provides?, found]
      rfl
    rw [firstOf_append, h.functions, functionsOf, List.findSome?_append, List.findSome?_singleton,
      here]
  events key := by
    have here : eventKind.provides? key reg = Contract.lastOf key c.contract.events := by
      simp only [CommonKind.provides?, found]
      rfl
    rw [firstOf_append, h.events, eventsOf, List.findSome?_append, List.findSome?_singleton, here]

/-- A registration that enters no contract leaves the contracts as they are. -/
theorem Mirrors.contracts_of_none (h : Mirrors r history) (none : reg.contract? = none)
    (place : Place) : r.contracts.get? place =
      (history ++ [reg]).reverse.findSome? (·.contractAt? place) := by
  rw [List.reverse_append, List.reverse_singleton, List.singleton_append, List.findSome?_cons,
    Registration.contractAt?, none, h.contracts]
  rfl

/-- Registering something else than a contract, or failing to. -/
theorem Mirrors.others (h : Mirrors r history) (none : reg.contract? = none) :
    Mirrors (r.next reg) (history ++ [reg]) := by
  cases reg with
  | contract place name source =>
    have fails : source.contract? = Option.none := Option.map_eq_none_iff.mp none
    have same : r.next (.contract place name source) = r := by
      rw [next, attempt?_contract, fails]
      rfl
    rw [same]
    refine ⟨h.contracts_of_none none, fun key => ?_, fun key => ?_⟩
    · rw [h.functions, List.findSome?_append, List.findSome?_singleton, CommonKind.provides?, none]
      exact Option.or_none.symm
    · rw [h.events, List.findSome?_append, List.findSome?_singleton, CommonKind.provides?, none]
      exact Option.or_none.symm
  | function f =>
    refine ⟨h.contracts_of_none none, fun key => ?_, fun key => ?_⟩
    · rw [List.findSome?_append, List.findSome?_singleton, ← h.functions]
      show firstOf key (r.functions ++ [(f.selector, f)]) = _
      rw [firstOf_append, firstOf_singleton, CommonKind.provides?_alone none rfl]
      rfl
    · rw [List.findSome?_append, List.findSome?_singleton, ← h.events]
      exact Option.or_none.symm
  | event e =>
    refine ⟨h.contracts_of_none none, fun key => ?_, fun key => ?_⟩
    · rw [List.findSome?_append, List.findSome?_singleton, ← h.functions]
      exact Option.or_none.symm
    · rw [List.findSome?_append, List.findSome?_singleton, ← h.events]
      show firstOf key (r.events ++ [(e.topic, e)]) = _
      rw [firstOf_append, firstOf_singleton, CommonKind.provides?_alone none rfl]
      rfl

/-- A registration that enters a contract is the one of the operations that registers it. -/
theorem next_enters {place : Place} {c : NamedContract} (found : reg.contract? = some (place, c)) :
    r.next reg = r.register place.1 place.2 c.name c.contract := by
  cases reg with
  | contract place' name source =>
    obtain ⟨c', given, made⟩ := Option.map_eq_some_iff.mp found
    cases made
    rw [next, attempt?_contract, given]
    rfl
  | function f => cases found
  | event e => cases found

theorem Mirrors.next (h : Mirrors r history) (reg : Registration) :
    Mirrors (r.next reg) (history ++ [reg]) := by
  cases found : reg.contract? with
  | none => exact h.others found
  | some entry =>
    rw [next_enters found]
    exact h.enters found (fun _ => firstOf_reverse _) (fun _ => firstOf_reverse _)

theorem mirrors_after (history : List Registration) : Mirrors (after history) history := by
  induction history using List.reverseRecOn with
  | nil => exact .empty
  | append_singleton earlier reg ih =>
    rw [after_concat]
    exact ih.next reg

/-- The registries that a history may lead to if the items of a contract join the common index
in any order. -/
inductive Builds : List Registration → Registry → Prop
  | empty : Builds [] .empty
  | enters {history : List Registration} {r : Registry} {reg : Registration} {place : Place}
      {c : NamedContract} {functions events} : Builds history r →
      reg.contract? = some (place, c) → Visits c.contract.functions functions →
      Visits c.contract.events events →
      Builds (history ++ [reg])
        ⟨r.contracts.insert place c, r.functions ++ functions, r.events ++ events⟩
  | others {history : List Registration} {r : Registry} {reg : Registration} :
      Builds history r → reg.contract? = none →
      Builds (history ++ [reg]) (r.next reg)

theorem Builds.mirrors (h : Builds history r) : Mirrors r history := by
  induction h with
  | empty => exact .empty
  | enters _ found functions events ih => exact ih.enters found functions.firstOf_eq events.firstOf_eq
  | others _ none ih => exact ih.others none

theorem exists_builds (history : List Registration) : ∃ r, Builds history r := by
  induction history using List.reverseRecOn with
  | nil => exact ⟨.empty, .empty⟩
  | append_singleton earlier reg ih =>
    obtain ⟨r, built⟩ := ih
    cases found : reg.contract? with
    | none => exact ⟨_, built.others found⟩
    | some entry => exact ⟨_, built.enters found (visits_lastOnly _) (visits_lastOnly _)⟩

/-! ## The law -/

/-- What a contract at a place is found to have is what the history gives it. -/
theorem Mirrors.contract? (h : Mirrors r history) {β : Type} (find : Contract → Option β)
    (chain : UInt64) (address : Address) : (r.contract? chain address).bind find =
      (history.reverse.findSome? (·.contractAt? (chain, address))).bind
        fun c => find c.contract := by
  rw [Registry.contract?, h.contracts, Option.bind_map]
  rfl

theorem Mirrors.follows (h : Mirrors r history) : r.Follows history where
  function chain address data f := by
    rw [CommonKind.resolves_iff, ← h.functions]
    by_cases short : data.length < 4
    · simp [function?, splitSelector?, short, Nat.not_le.mpr short]
    · simp only [function?, splitSelector?, if_neg short, Nat.not_lt.mp short, true_and,
        h.contract?]
      exact Iff.rfl
  event chain address topic e := by
    rw [CommonKind.resolves_iff, ← h.events]
    unfold event?
    rw [h.contract?]
    exact Iff.rfl
  error chain address selector e := by
    unfold error?
    rw [h.contract?, Option.bind_eq_some_iff]
    apply exists_congr
    intro c
    rw [← current_iff]
    apply and_congr_right
    rintro ⟨_, reg, _, _, found, _⟩
    exact (errorKind.isLast_iff (Registration.keyed found)).symm
  name chain address name := by
    unfold name?
    rw [h.contracts, Option.bind_eq_some_iff]
    simp only [← current_iff]

/-- A registration that fails might as well not have been tried. -/
theorem after_of_failed {before later : List Registration} {reg : Registration}
    (fails : (after before).attempt? reg = none) :
    after (before ++ reg :: later) = after (before ++ later) := by
  have same : (after before).next reg = after before := by
    rw [next, fails]
    rfl
  rw [after, List.foldl_append, List.foldl_cons]
  show later.foldl Registry.next ((after before).next reg) = _
  rw [same, after, after, List.foldl_append]

/-- The look-ups after any history of registrations. -/
theorem lookups_follow_registrations (history : List Registration) :
    (after history).Follows history ∧
      ((∃ r, Builds history r) ∧ ∀ r, Builds history r → r.Follows history) ∧
      ∀ before reg later, history = before ++ reg :: later →
        (after before).attempt? reg = none → after history = after (before ++ later) := by
  refine ⟨(mirrors_after history).follows,
    ⟨exists_builds history, fun r built => built.mirrors.follows⟩, ?_⟩
  rintro before reg later rfl fails
  exact after_of_failed fails

end Registry

end EvmInspect.Abi
