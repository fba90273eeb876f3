import EvmInspect.Word

/-!
# Maps ordered by key

A finite map that keeps its entries in strictly ascending order of key, so that two
maps with the same look-ups are the same map (`KeyMap.ext_get?`) and a listing needs no
sorting. Each operation is described by what it does to look-ups.
-/

namespace EvmInspect

/-- Keys that are told apart by a number, which also orders them. -/
class Rank (κ : Type) where
  rank : κ → Nat
  rank_inj : ∀ {a b : κ}, rank a = rank b → a = b

instance : Rank Word := ⟨BitVec.toNat, BitVec.eq_of_toNat_eq⟩

instance : Rank Address := ⟨Address.toNat, Address.toNat_inj⟩

instance : Rank UInt64 := ⟨UInt64.toNat, UInt64.toNat_inj.mp⟩

instance : Rank Hash := ⟨fun h => h.toWord.toNat, fun h => Hash.toWord_inj (BitVec.eq_of_toNat_eq h)⟩

/-- A number is split into a multiple and a rest in one way only. -/
theorem Rank.pair_inj {size a b v w : Nat} (hv : v < size) (hw : w < size)
    (h : a * size + v = b * size + w) : a = b ∧ v = w := by
  have hsize : 0 < size := Nat.lt_of_le_of_lt (Nat.zero_le v) hv
  have ha : a = b := by
    have hdiv := congrArg (· / size) h
    simpa [Nat.mul_add_div hsize, Nat.mul_comm _ size, Nat.div_eq_of_lt hv, Nat.div_eq_of_lt hw]
      using hdiv
  exact ⟨ha, Nat.add_left_cancel (ha ▸ h)⟩

/-- Pairs of an address and a word are ordered by the address first. -/
instance : Rank (Address × Word) where
  rank p := p.1.toNat * Word.count + p.2.toNat
  rank_inj := by
    rintro ⟨a, v⟩ ⟨b, w⟩ h
    obtain ⟨ha, hv⟩ := Rank.pair_inj (Word.toNat_lt_count v) (Word.toNat_lt_count w) h
    exact Prod.ext (Address.toNat_inj ha) (BitVec.eq_of_toNat_eq hv)

/-- Pairs of a chain number and an address are ordered by the chain first. -/
instance : Rank (UInt64 × Address) where
  rank p := p.1.toNat * Address.count + p.2.toNat
  rank_inj := by
    rintro ⟨c, a⟩ ⟨d, b⟩ h
    obtain ⟨hc, ha⟩ := Rank.pair_inj a.toNat_lt_count b.toNat_lt_count h
    exact Prod.ext (UInt64.toNat_inj.mp hc) (Address.toNat_inj ha)

open Rank

theorem Rank.rank_eq_iff {κ : Type} [Rank κ] {a b : κ} : rank a = rank b ↔ a = b :=
  ⟨rank_inj, congrArg rank⟩

variable {κ α β : Type} [Rank κ]

/-- A finite map whose entries stand in strictly ascending order of key. -/
structure KeyMap (κ α : Type) [Rank κ] where
  toList : List (κ × α)
  ordered : toList.Pairwise fun a b => rank a.1 < rank b.1
deriving DecidableEq

namespace KeyMap

/-- The value under a key in a list of entries. -/
def findIn (k : κ) : List (κ × α) → Option α
  | [] => none
  | (k', v) :: rest => if rank k' = rank k then some v else findIn k rest

/-- Puts an entry at its place in an ordered list of entries. -/
def insertIn (k : κ) (v : α) : List (κ × α) → List (κ × α)
  | [] => [(k, v)]
  | (k', v') :: rest =>
    if rank k < rank k' then (k, v) :: (k', v') :: rest
    else if rank k = rank k' then (k, v) :: rest
    else (k', v') :: insertIn k v rest

theorem mem_insertIn {k : κ} {v : α} {e : κ × α} {es : List (κ × α)}
    (h : e ∈ insertIn k v es) : e = (k, v) ∨ e ∈ es := by
  induction es with
  | nil => simpa [insertIn] using h
  | cons head rest ih =>
    simp only [insertIn] at h
    split at h
    · simpa using h
    · split at h
      · rcases List.mem_cons.mp h with h | h
        · exact .inl h
        · exact .inr (List.mem_cons_of_mem _ h)
      · rcases List.mem_cons.mp h with h | h
        · exact .inr (h ▸ List.mem_cons_self)
        · exact (ih h).imp id (List.mem_cons_of_mem _)

theorem ordered_insertIn (k : κ) (v : α) {es : List (κ × α)}
    (h : es.Pairwise fun a b => rank a.1 < rank b.1) :
    (insertIn k v es).Pairwise fun a b => rank a.1 < rank b.1 := by
  induction es with
  | nil => simp [insertIn]
  | cons head rest ih =>
    obtain ⟨first, tail⟩ := List.pairwise_cons.mp h
    simp only [insertIn]
    split
    next lt =>
      refine List.pairwise_cons.mpr ⟨fun e he => ?_, h⟩
      rcases List.mem_cons.mp he with rfl | he
      · exact lt
      · exact Nat.lt_trans lt (first e he)
    next ge =>
      split
      next eq => exact List.pairwise_cons.mpr ⟨fun e he => eq ▸ first e he, tail⟩
      next ne =>
        refine List.pairwise_cons.mpr ⟨fun e he => ?_, ih tail⟩
        rcases mem_insertIn he with rfl | he
        · exact Nat.lt_of_le_of_ne (Nat.not_lt.mp ge) (Ne.symm ne)
        · exact first e he

theorem findIn_insertIn (k k' : κ) (v : α) (es : List (κ × α)) :
    findIn k' (insertIn k v es) = if rank k = rank k' then some v else findIn k' es := by
  induction es with
  | nil => simp [insertIn, findIn]
  | cons head rest ih =>
    simp only [insertIn]
    split
    · simp [findIn]
    next ge =>
      split
      next eq =>
        by_cases hk : rank k = rank k'
        · simp [findIn, hk]
        · have : ¬ rank head.1 = rank k' := fun h => hk (eq.trans h)
          simp [findIn, hk, this]
      next ne =>
        by_cases hk : rank head.1 = rank k'
        · have : ¬ rank k = rank k' := fun h => ne (h.trans hk.symm)
          simp [findIn, hk, this]
        · simp [findIn, hk, ih]

theorem findIn_eq_none {k : κ} {es : List (κ × α)} (h : ∀ e ∈ es, rank e.1 ≠ rank k) :
    findIn k es = none := by
  induction es with
  | nil => rfl
  | cons head rest ih =>
    have := h head List.mem_cons_self
    simp [findIn, this, ih fun e he => h e (List.mem_cons_of_mem _ he)]

theorem findIn_eq_some_iff {k : κ} {v : α} {es : List (κ × α)}
    (h : es.Pairwise fun a b => rank a.1 < rank b.1) :
    findIn k es = some v ↔ (k, v) ∈ es := by
  induction es with
  | nil => simp [findIn]
  | cons head rest ih =>
    obtain ⟨first, tail⟩ := List.pairwise_cons.mp h
    obtain ⟨k', v'⟩ := head
    by_cases hk : rank k' = rank k
    · have key : k' = k := rank_inj hk
      subst key
      have fresh : (k', v) ∉ rest := fun mem =>
        Nat.lt_irrefl (rank k') (first (k', v) mem)
      simp [findIn, fresh, eq_comm]
    · have other : k ≠ k' := fun h => hk (by rw [h])
      simp [findIn, hk, ih tail, other]

/-- The map without entries. -/
def empty : KeyMap κ α := ⟨[], .nil⟩

instance : EmptyCollection (KeyMap κ α) := ⟨empty⟩

instance : Inhabited (KeyMap κ α) := ⟨empty⟩

/-- The value under a key. -/
def get? (m : KeyMap κ α) (k : κ) : Option α := findIn k m.toList

/-- Whether the key has an entry. -/
def contains (m : KeyMap κ α) (k : κ) : Bool := (m.get? k).isSome

/-- Puts a value under a key, in place of one that is there. -/
def insert (m : KeyMap κ α) (k : κ) (v : α) : KeyMap κ α :=
  ⟨insertIn k v m.toList, ordered_insertIn k v m.ordered⟩

/-- Keeps the entries whose key and value pass. -/
def filter (m : KeyMap κ α) (p : κ → α → Bool) : KeyMap κ α :=
  ⟨m.toList.filter fun e => p e.1 e.2, m.ordered.filter _⟩

/-- Takes the entry of a key away. -/
def erase (m : KeyMap κ α) (k : κ) : KeyMap κ α := m.filter fun k' _ => rank k' != rank k

/-- The same keys with a value made from each key and value. -/
def map (m : KeyMap κ α) (f : κ → α → β) : KeyMap κ β :=
  ⟨m.toList.map fun e => (e.1, f e.1 e.2), List.pairwise_map.mpr m.ordered⟩

/-- The keys in ascending order. -/
def keys (m : KeyMap κ α) : List κ := m.toList.map Prod.fst

/-- The map of a list of entries; of two entries with one key the later counts. -/
def ofList (es : List (κ × α)) : KeyMap κ α :=
  es.foldl (fun m e => m.insert e.1 e.2) empty

/-- Adds the entries of `later` to `m`; `combine` settles a key that both have. -/
def union (combine : α → α → α) (m later : KeyMap κ α) : KeyMap κ α :=
  later.toList.foldl
    (fun acc e => acc.insert e.1 (match acc.get? e.1 with
      | some old => combine old e.2
      | none => e.2)) m

/-! ## Look-ups -/

@[simp] theorem get?_empty (k : κ) : (empty : KeyMap κ α).get? k = none := rfl

@[simp] theorem get?_insert (m : KeyMap κ α) (k k' : κ) (v : α) :
    (m.insert k v).get? k' = if rank k = rank k' then some v else m.get? k' :=
  findIn_insertIn k k' v m.toList

theorem get?_insert_self (m : KeyMap κ α) (k : κ) (v : α) : (m.insert k v).get? k = some v := by
  simp

theorem get?_insert_of_ne (m : KeyMap κ α) {k k' : κ} (v : α) (h : k ≠ k') :
    (m.insert k v).get? k' = m.get? k' := by
  have : ¬ rank k = rank k' := fun eq => h (rank_inj eq)
  simp [this]

/-- Putting a value leaves no key without one. -/
theorem get?_insert_ne_none {m : KeyMap κ α} {k k' : κ} {v : α} (h : m.get? k' ≠ none) :
    (m.insert k v).get? k' ≠ none := by
  rw [get?_insert]
  split
  next => exact Option.some_ne_none v
  next => exact h

theorem get?_eq_some_iff {m : KeyMap κ α} {k : κ} {v : α} :
    m.get? k = some v ↔ (k, v) ∈ m.toList :=
  findIn_eq_some_iff m.ordered

@[simp] theorem get?_filter (m : KeyMap κ α) (p : κ → α → Bool) (k : κ) :
    (m.filter p).get? k = (m.get? k).filter (p k) := by
  apply Option.ext
  intro v
  simp [get?_eq_some_iff, filter, Option.filter_eq_some_iff]

theorem get?_erase (m : KeyMap κ α) (k k' : κ) :
    (m.erase k).get? k' = if rank k = rank k' then none else m.get? k' := by
  rw [erase, get?_filter]
  by_cases h : rank k = rank k'
  · cases hm : m.get? k' <;> simp [Option.filter, h]
  · have : ¬ rank k' = rank k := fun eq => h eq.symm
    cases hm : m.get? k' <;> simp [Option.filter, h, this]

@[simp] theorem get?_map (m : KeyMap κ α) (f : κ → α → β) (k : κ) :
    (m.map f).get? k = (m.get? k).map (f k) := by
  simp only [get?, map]
  induction m.toList with
  | nil => rfl
  | cons head rest ih =>
    by_cases h : rank head.1 = rank k
    · have key : head.1 = k := rank_inj h
      simp [findIn, key]
    · simp [findIn, h, ih]

/-- A union holds what either map holds, and what `combine` makes of it where both do. -/
theorem get?_union (combine : α → α → α) (m later : KeyMap κ α) (k : κ) :
    (union combine m later).get? k =
      match later.get? k with
      | none => m.get? k
      | some v => some (match m.get? k with
        | some old => combine old v
        | none => v) := by
  obtain ⟨es, ordered⟩ := later
  show (es.foldl _ m).get? k = match findIn k es with | none => _ | some v => _
  induction es generalizing m with
  | nil => rfl
  | cons head rest ih =>
    obtain ⟨first, tail⟩ := List.pairwise_cons.mp ordered
    obtain ⟨k', v⟩ := head
    simp only [List.foldl_cons, ih _ tail, findIn]
    by_cases hk : rank k' = rank k
    · have key : k' = k := rank_inj hk
      subst key
      have gone : findIn k' rest = none :=
        findIn_eq_none fun e he eq => Nat.lt_irrefl _ (eq ▸ first e he)
      simp only [gone, if_pos, get?_insert_self]
    · have other : k' ≠ k := fun h => hk (h ▸ rfl)
      simp only [if_neg hk, get?_insert_of_ne m _ other]

theorem keys_map (m : KeyMap κ α) (f : κ → α → β) : (m.map f).keys = m.keys := by
  simp only [keys, map, List.map_map]
  rfl

/-- Maps with the same look-ups are the same map. -/
theorem ext_get? {m n : KeyMap κ α} (h : ∀ k, m.get? k = n.get? k) : m = n := by
  have mem : ∀ e, e ∈ m.toList ↔ e ∈ n.toList := fun e => by
    rw [show e = (e.1, e.2) from rfl, ← get?_eq_some_iff, ← get?_eq_some_iff, h]
  obtain ⟨es, hes⟩ := m
  obtain ⟨fs, hfs⟩ := n
  simp only at mem
  suffices es = fs by subst this; rfl
  clear h
  induction es generalizing fs with
  | nil => cases fs with
    | nil => rfl
    | cons f fs => exact absurd ((mem f).mpr List.mem_cons_self) List.not_mem_nil
  | cons e es ih => cases fs with
    | nil => exact absurd ((mem e).mp List.mem_cons_self) List.not_mem_nil
    | cons f fs =>
      obtain ⟨first, tail⟩ := List.pairwise_cons.mp hes
      obtain ⟨first', tail'⟩ := List.pairwise_cons.mp hfs
      have head : e = f := by
        rcases List.mem_cons.mp ((mem e).mp List.mem_cons_self) with h | h
        · exact h
        · rcases List.mem_cons.mp ((mem f).mpr List.mem_cons_self) with h' | h'
          · exact h'.symm
          · exact absurd (Nat.lt_trans (first f h') (first' e h)) (Nat.lt_irrefl _)
      subst head
      have rest : ∀ x, x ∈ es ↔ x ∈ fs := fun x => by
        constructor
        · intro hx
          rcases List.mem_cons.mp ((mem x).mp (List.mem_cons_of_mem _ hx)) with h | h
          · subst h; exact absurd (first x hx) (Nat.lt_irrefl _)
          · exact h
        · intro hx
          rcases List.mem_cons.mp ((mem x).mpr (List.mem_cons_of_mem _ hx)) with h | h
          · subst h; exact absurd (first' x hx) (Nat.lt_irrefl _)
          · exact h
      rw [ih tail fs tail' rest]

end KeyMap

/-- A finite set of keys. -/
abbrev KeySet (κ : Type) [Rank κ] := KeyMap κ Unit

namespace KeySet

/-- Adds a key. -/
def add (s : KeySet κ) (k : κ) : KeySet κ := KeyMap.insert s k ()

@[simp] theorem contains_add (s : KeySet κ) (k k' : κ) :
    (add s k).contains k' = (decide (rank k = rank k') || s.contains k') := by
  by_cases h : rank k = rank k' <;> simp [add, KeyMap.contains, h]

/-- Sets with the same members are the same set. -/
theorem ext_contains {s t : KeySet κ} (h : ∀ k, s.contains k = t.contains k) : s = t := by
  apply KeyMap.ext_get?
  intro k
  have := h k
  simp only [KeyMap.contains] at this
  cases hs : KeyMap.get? s k <;> cases ht : KeyMap.get? t k <;> simp_all

end KeySet

end EvmInspect
