import Centrald.Release.Semver
import Mathlib.Order.Compare

/-!
# `Centrald.Proofs.Semver`: the order of versions

`compareSemver` compares keys, one after the other: the three numbers,
then whether there is a pre-release part, then its identifiers. So it is
a total preorder.
-/

set_option autoImplicit false

namespace Centrald.Proofs

open Release

/-- Numeric identifiers come first, by their numbers. The others come in
the order of their texts. -/
theorem compareIdentifiers_eq : compareIdentifiers =
    compareLex (compareOn fun i : Identifier => if isNumeric i then 0 else 1)
      (compareLex (compareOn fun i : Identifier => if isNumeric i then numberOf i else 0)
        (compareOn fun i : Identifier => if isNumeric i then [] else i)) := by
  funext left right
  simp only [compareIdentifiers, compareLex, compareOn]
  cases isNumeric left <;> cases isNumeric right <;> simp <;> rfl

instance : Std.TransCmp compareIdentifiers := by
  rw [compareIdentifiers_eq]
  infer_instance

theorem comparePrerelease_eq : comparePrerelease = List.compareLex compareIdentifiers := by
  funext lefts rights
  induction lefts generalizing rights with
  | nil => cases rights <;> rfl
  | cons left lefts ih =>
    cases rights with
    | nil => rfl
    | cons right rights => rw [comparePrerelease, ih, List.compareLex_cons_cons]

instance : Std.TransCmp fun a b : Semver =>
    List.compareLex compareIdentifiers a.prerelease b.prerelease where
  eq_swap := Std.OrientedCmp.eq_swap
  isLE_trans := Std.TransCmp.isLE_trans

theorem compareSemver_eq : compareSemver =
    compareLex (compareOn Semver.major) (compareLex (compareOn Semver.minor)
      (compareLex (compareOn Semver.patch)
        (compareLex (compareOn fun v => if v.prerelease = [] then 1 else 0)
          fun a b => List.compareLex compareIdentifiers a.prerelease b.prerelease))) := by
  funext a b
  simp only [compareSemver, comparePrerelease_eq, compareLex, compareOn]
  cases a.prerelease <;> cases b.prerelease <;> simp [List.compareLex_nil_nil] <;> rfl

instance : Std.TransCmp compareSemver := by
  rw [compareSemver_eq]
  infer_instance

end Centrald.Proofs
