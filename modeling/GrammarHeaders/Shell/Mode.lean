import GrammarHeaders.Shell.Bytes
import GrammarHeaders.Text.Word

namespace GrammarHeaders.Shell.Mode

def groups (who : Bytes) : List Nat :=
  if who.isEmpty || who.contains 'a' then [64, 8, 1]
  else (if who.contains 'u' then [64] else []) ++ (if who.contains 'g' then [8] else []) ++
    (if who.contains 'o' then [1] else [])

def bits (rights : Nat) (c : Char) : Nat :=
  match c with
  | 'r' => 4
  | 'w' => 2
  | 'x' => 1
  | 'X' => if rights &&& 73 = 0 then 0 else 1
  | 'u' => rights / 64 % 8
  | 'g' => rights / 8 % 8
  | 'o' => rights % 8
  | _ => 0

def change (groups : List Nat) (op : Char) (which : Nat) (rights : Nat) : Nat :=
  groups.foldl (fun rights weight =>
    let old := rights / weight % 8
    let new := match op with
      | '+' => old ||| which
      | '-' => old &&& (7 - which)
      | _ => which
    rights - old * weight + new * weight) rights

def actions (who : List Nat) : Nat → Bytes → Nat → Option Nat
  | 0, _, _ => none
  | _ + 1, [], rights => some rights
  | n + 1, op :: t, rights =>
    if op = '+' ∨ op = '-' ∨ op = '=' then
      let which := t.takeWhile fun c => "rwxXstugo".toList.contains c
      let sum := which.foldl (fun all c => all ||| bits rights c) 0
      actions who n (t.drop which.length) (change who op sum rights)
    else none

def changed? (t : Bytes) (rights : Nat) : Option Nat :=
  (Text.splitOn ',' t).foldlM (fun rights clause =>
    let who := clause.takeWhile fun c => "ugoa".toList.contains c
    if clause.isEmpty then none
    else actions (groups who) (clause.length + 1) (clause.drop who.length) rights) rights

end GrammarHeaders.Shell.Mode
