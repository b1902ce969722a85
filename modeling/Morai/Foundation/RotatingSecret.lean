import Mathlib.Data.List.Basic

/-!
# Secrets that are good for one use

An issuer hands out a new secret whenever the live one is presented, and
refuses every other. It never hands out a secret twice, so whoever kept an old
one has lost the thread for good.
-/

namespace Morai.Foundation.RotatingSecret

set_option autoImplicit false

variable {Secret : Type*} [DecidableEq Secret]

structure Issuer (Secret : Type*) where
  live : Secret
  retired : List Secret
  fresh : live ∉ retired

/-- Before the first rotation. -/
def Issuer.first (secret : Secret) : Issuer Secret := ⟨secret, [], List.not_mem_nil⟩

/-- `none` when the issuer refuses what is presented, or would have to reuse a
secret. -/
def Issuer.rotate (issuer : Issuer Secret) (presented next : Secret) : Option (Issuer Secret) :=
  if presented = issuer.live then
    if unused : next ∉ issuer.live :: issuer.retired then
      some ⟨next, issuer.live :: issuer.retired, unused⟩
    else none
  else none

theorem rotate_ok (issuer after : Issuer Secret) (presented next : Secret)
    (rotated : issuer.rotate presented next = some after) :
    presented = issuer.live ∧ next ∉ issuer.live :: issuer.retired ∧ after.live = next ∧
      after.retired = issuer.live :: issuer.retired := by
  unfold Issuer.rotate at rotated
  split_ifs at rotated with same unused
  cases rotated
  exact ⟨same, unused, rfl, rfl⟩

/-- A retired secret is refused. -/
theorem rotate_retired (issuer : Issuer Secret) (presented next : Secret)
    (retired : presented ∈ issuer.retired) : issuer.rotate presented next = none := by
  unfold Issuer.rotate
  rw [if_neg]
  intro same
  exact issuer.fresh (same ▸ retired)

/-- Nothing comes back from retirement. -/
theorem rotate_keeps_retired (issuer after : Issuer Secret) (presented next old : Secret)
    (rotated : issuer.rotate presented next = some after) (retired : old ∈ issuer.retired) :
    old ∈ after.retired := by
  rw [(rotate_ok issuer after presented next rotated).2.2.2]
  exact List.mem_cons_of_mem _ retired

theorem rotate_retires_live (issuer after : Issuer Secret) (presented next : Secret)
    (rotated : issuer.rotate presented next = some after) : issuer.live ∈ after.retired := by
  rw [(rotate_ok issuer after presented next rotated).2.2.2]
  exact List.mem_cons_self

end Morai.Foundation.RotatingSecret
