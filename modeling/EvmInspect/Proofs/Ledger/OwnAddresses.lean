import EvmInspect.Proofs.Ledger.Throughout

/-!
# Accounts under their own address

An account names the address that it was made for, and a world keeps it under one. Nothing
compares the two. They are the same because an account is made under the address that is asked
for, no change of an account changes what it names, and going back keeps a live account or makes
a new one under the address of the captured one, whose own name is not looked at. So it is with
every account of every reachable ledger, of those brought back too, and of those in snapshots
(`Reachable.own`).
-/

namespace EvmInspect.Ledger

open State (AccountLaw Throughout)

/-- Each account stands under the address that it was made for. -/
def World.Own (w : World) : Prop :=
  ∀ a account, w.account? a = some account → account.address = a

section Own

variable {w live : World}

/-- An account that is made for an address stands under it. -/
theorem World.own_iff_every : w.Own ↔ w.Every fun a account => account.address = a := by
  constructor
  · intro own a
    unfold accountD
    cases there : w.account? a with
    | none => rfl
    | some account => exact own a account there
  · intro every a account there
    have named := every a
    rwa [accountD, there] at named

theorem Touch.address_change (t : Touch) (account : Account) :
    (t.change account).address = account.address := by
  cases t with
  | warmKeys keys => exact warmKeys_same (fun _ _ => rfl) keys account
  | _ => rfl

/-- What an account names is a law of accounts, whatever the source replies. -/
theorem own_law {replies : Replies} {permitted : State.Operation → Prop} :
    AccountLaw replies permitted fun a account => account.address = a where
  empty _ := rfl
  balance _ own := own
  code _ own := own
  nonce _ own := own
  fetched own _ _ := own
  touch t own _ _ := (t.address_change _).trans own
  merge _ own := own

theorem World.Own.write (own : w.Own) (change : Write) : (w.write change).Own := by
  have law : AccountLaw .any (fun _ => True) fun a account => account.address = a := own_law
  exact own_iff_every.mpr (law.write (own_iff_every.mp own) trivial)

theorem World.Own.restore (own : w.Own) (now : live.Own) : (w.restore live).Own :=
  own_iff_every.mpr ((own_iff_every.mp own).restore (own_iff_every.mp now) fun _ named => named)

end Own

namespace State

theorem own_invariant : Invariant .any (fun _ => True) (Throughout World.Own) := by
  have law : AccountLaw .any (fun _ => True) fun a account => account.address = a := own_law
  refine .throughout (fun own absent reply => ?_) (fun own _ => own.write _)
    fun captured live => captured.restore live
  exact World.own_iff_every.mpr (law.keep (World.own_iff_every.mp own) absent reply)

theorem Reachable.own {l : State} (reach : Reachable l) : Throughout World.Own l :=
  reach.keeps own_invariant ⟨fun _ _ there => (nomatch there), fun _ mem => nomatch mem⟩

end State

end EvmInspect.Ledger
