import EvmInspect.Word

/-!
# Precompiled contracts

The addresses 1 to 17, at which the machine itself answers.
-/

namespace EvmInspect.Ledger

/-- The last address of a precompiled contract. -/
def lastPrecompile : Nat := 17

/-- The addresses of the precompiled contracts, in ascending order. -/
def precompiles : List Address := (List.range lastPrecompile).map fun n => Address.ofNat (n + 1)

def isPrecompile (a : Address) : Bool := precompiles.contains a

/-- There are no others than the first addresses after zero. -/
theorem isPrecompile_iff {a : Address} :
    isPrecompile a = true ↔ 1 ≤ a.toNat ∧ a.toNat ≤ lastPrecompile := by
  have small : ∀ n, n < lastPrecompile → (Address.ofNat (n + 1)).toNat = n + 1 := by decide
  simp only [isPrecompile, precompiles, List.contains_iff_mem, List.mem_map, List.mem_range]
  constructor
  · rintro ⟨n, below, rfl⟩
    rw [small n below]
    exact ⟨Nat.succ_pos n, below⟩
  · rintro ⟨positive, below⟩
    have before : a.toNat - 1 + 1 = a.toNat := Nat.sub_add_cancel positive
    have low : a.toNat - 1 < lastPrecompile :=
      Nat.lt_of_lt_of_le (Nat.sub_one_lt_of_lt positive) below
    exact ⟨a.toNat - 1, low, Address.toNat_inj ((small _ low).trans before)⟩

end EvmInspect.Ledger
