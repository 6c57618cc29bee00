import GrammarHeaders.Proofs.Checkouts

namespace GrammarHeaders

open Std (LawfulEqCmp OrientedCmp ReflCmp TransCmp)

namespace Path

def Component.nameOrEmpty : Component → String
  | .name n => n
  | _ => ""

theorem Component.compare_eq :
    Component.compare = compareLex (compareOn rank) (compareOn nameOrEmpty) := by
  funext a b
  cases a <;> cases b <;> rfl

instance : TransCmp Component.compare :=
  Component.compare_eq ▸
    (inferInstance : TransCmp (compareLex (compareOn Component.rank) (compareOn Component.nameOrEmpty)))

instance : LawfulEqCmp Component.compare where
  compare_self := ReflCmp.compare_self
  eq_of_compare {a b} h := by
    cases a <;> cases b <;> simp_all [Component.compare, Component.rank]

theorem compareComponents_eq : compareComponents = List.compareLex Component.compare := by
  funext as bs
  induction as generalizing bs with
  | nil => cases bs <;> rfl
  | cons a as ih =>
    cases bs with
    | nil => rfl
    | cons b bs => rw [compareComponents, List.compareLex_cons_cons, ih]

theorem compareComponents_eq_eq_iff {as bs : List Component} : compareComponents as bs = .eq ↔ as = bs := by
  rw [compareComponents_eq]
  exact LawfulEqCmp.compare_eq_iff_eq

theorem le_trans {p q r : Path} (h : p.le q = true) (h' : q.le r = true) : p.le r = true := by
  rw [le, compareComponents_eq] at *
  exact TransCmp.isLE_trans h h'

theorem le_total (p q : Path) : (p.le q || q.le p) = true := by
  have hswap : List.compareLex Component.compare q.components p.components =
      (List.compareLex Component.compare p.components q.components).swap := OrientedCmp.eq_swap
  rw [le, le, compareComponents_eq, hswap]
  cases List.compareLex Component.compare p.components q.components <;> rfl

end Path

end GrammarHeaders
