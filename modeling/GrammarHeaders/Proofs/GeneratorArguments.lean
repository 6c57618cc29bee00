import GrammarHeaders.Request
import Mathlib.Logic.Function.Basic

namespace GrammarHeaders

namespace Text

variable {old new a t : Text}

/-- The text has no braces. -/
def BraceFree (t : Text) : Prop := '\x7b' ∉ t ∧ '\x7d' ∉ t

instance (t : Text) : Decidable (BraceFree t) := inferInstanceAs (Decidable (_ ∧ _))

theorem braceFree_nil : BraceFree [] := by decide

theorem BraceFree.append (ha : BraceFree a) (ht : BraceFree t) : BraceFree (a ++ t) :=
  ⟨by simp [ha.1, ht.1], by simp [ha.2, ht.2]⟩

theorem braceFree_flatMap {α : Type} {f : α → Text} {items : List α} (h : ∀ x ∈ items, BraceFree (f x)) :
    BraceFree (items.flatMap f) := by
  induction items with
  | nil => exact braceFree_nil
  | cons x items ih =>
    obtain ⟨hx, hitems⟩ := List.forall_mem_cons.mp h
    exact hx.append (ih hitems)

theorem BraceFree.intercalate {items : List Text} (ha : BraceFree a) (h : ∀ t ∈ items, BraceFree t) :
    BraceFree (List.intercalate a items) := by
  induction items with
  | nil => exact braceFree_nil
  | cons t items ih =>
    obtain ⟨ht, hitems⟩ := List.forall_mem_cons.mp h
    cases items with
    | nil => simpa using ht
    | cons u items =>
      rw [List.intercalate_cons_cons]
      exact (ht.append ha).append (ih hitems)

theorem replaceFrom_skip (old new a t : Text) :
    replaceFrom old new a.length (a ++ t) = replaceFrom old new 0 t := by
  induction a with
  | nil => rfl
  | cons c a ih => exact ih

theorem replaceAll_append {c : Char} (h : c ∉ a) (rest : Text) :
    replaceAll (c :: rest) new (a ++ t) = a ++ replaceAll (c :: rest) new t := by
  induction a with
  | nil => rfl
  | cons d a ih =>
    rw [List.mem_cons, not_or] at h
    have hstart : (c :: rest).isPrefixOf (d :: (a ++ t)) = false := by
      rw [List.isPrefixOf, beq_false_of_ne h.1, Bool.false_and]
    rw [List.cons_append, replaceAll, replaceFrom, hstart]
    exact congrArg (d :: ·) (ih h.2)

theorem replaceAll_self (c : Char) (rest new t : Text) :
    replaceAll (c :: rest) new (c :: rest ++ t) = new ++ replaceAll (c :: rest) new t := by
  have hstart : (c :: rest).isPrefixOf (c :: (rest ++ t)) = true := by simp
  rw [List.cons_append, replaceAll, replaceFrom, if_pos hstart, List.length_cons, Nat.add_sub_cancel,
    replaceFrom_skip]
  rfl

end Text

/-- Nothing in the request has braces. -/
structure Request.BraceFree (r : Request) : Prop where
  module : Text.BraceFree r.module.toList
  headers : ∀ header ∈ r.headers, Text.BraceFree header.text.toList
  includeDir : Text.BraceFree r.includeDir.text.toList
  outputDir : Text.BraceFree r.outputDir.text.toList

namespace ExternalProgram

inductive Placeholder where
  | module
  | includeDir
  | outputDir
  | headers
  deriving DecidableEq

namespace Placeholder

def word : Placeholder → Text
  | module => "module".toList
  | includeDir => "include".toList
  | outputDir => "output".toList
  | headers => "headers".toList

def text (p : Placeholder) : Text := '\x7b' :: (p.word ++ ['\x7d'])

/-- What a placeholder inside a longer argument stands for. -/
def value (r : Request) : Placeholder → String
  | module => r.module
  | includeDir => r.includeDir.text
  | outputDir => r.outputDir.text
  | headers => ",".intercalate (r.headers.map Path.text)

theorem braceFree_word (p : Placeholder) : Text.BraceFree p.word := by
  cases p <;> decide

theorem braceFree_value {r : Request} (hr : r.BraceFree) (p : Placeholder) :
    Text.BraceFree (p.value r).toList := by
  cases p with
  | module => exact hr.module
  | includeDir => exact hr.includeDir
  | outputDir => exact hr.outputDir
  | headers =>
    rw [value, String.toList_intercalate]
    apply Text.BraceFree.intercalate (by decide)
    intro t ht
    rw [List.map_map] at ht
    obtain ⟨header, hmem, rfl⟩ := List.mem_map.mp ht
    exact hr.headers header hmem

theorem not_isPrefixOf_text {p q : Placeholder} (h : p ≠ q) (t : Text) :
    p.text.isPrefixOf (q.text ++ t) = false := by
  cases p <;> cases q <;> first | exact absurd rfl h | rfl

end Placeholder

/-- A part of an argument. -/
inductive Part where
  | piece (t : Text) (plain : Text.BraceFree t)
  | placeholder (p : Placeholder)

namespace Part

/-- The part with those placeholders filled in that have got a text. -/
def filled (texts : Placeholder → Option Text) : Part → Text
  | piece t _ => t
  | placeholder p => (texts p).getD p.text

def text : Part → Text := filled fun _ => none

variable {texts : Placeholder → Option Text} {p : Placeholder} {t : Text}

theorem replaceAll_filled_append (hp : texts p = none) (hplain : ∀ q, ∀ t ∈ texts q, Text.BraceFree t)
    (new : Text) (part : Part) (t : Text) :
    Text.replaceAll p.text new (part.filled texts ++ t) =
      part.filled (Function.update texts p (some new)) ++ Text.replaceAll p.text new t := by
  cases part with
  | piece u plain => exact Text.replaceAll_append plain.1 _
  | placeholder q =>
    by_cases hq : q = p
    · subst hq
      rw [filled, filled, hp, Function.update_self, Option.getD_none, Option.getD_some]
      exact Text.replaceAll_self _ _ _ _
    · rw [filled, filled, Function.update_of_ne hq]
      cases hu : texts q with
      | some u => exact Text.replaceAll_append (hplain q u hu).1 _
      | none =>
        have hword : '\x7b' ∉ q.word ++ ['\x7d'] := by simp [q.braceFree_word.1]
        have hstart := Placeholder.not_isPrefixOf_text (Ne.symm hq) t
        rw [Option.getD_none]
        rw [Placeholder.text, Placeholder.text, List.cons_append] at hstart ⊢
        rw [Text.replaceAll, Text.replaceFrom, hstart]
        exact congrArg ('\x7b' :: ·) (Text.replaceAll_append hword _)

theorem replaceAll_filled (hp : texts p = none) (hplain : ∀ q, ∀ t ∈ texts q, Text.BraceFree t)
    (new : Text) (parts : List Part) :
    Text.replaceAll p.text new (parts.flatMap (filled texts)) =
      parts.flatMap (filled (Function.update texts p (some new))) := by
  induction parts with
  | nil => rfl
  | cons part parts ih =>
    rw [List.flatMap_cons, replaceAll_filled_append hp hplain, ih, List.flatMap_cons]

end Part

def written (parts : List Part) : String := String.ofList (parts.flatMap Part.text)

def substituted (r : Request) (parts : List Part) : String :=
  String.ofList (parts.flatMap (Part.filled fun p => some (p.value r).toList))

/-- The arguments that one argument turns into. -/
def expansion (r : Request) (parts : List Part) : List String :=
  if written parts = headersPlaceholder then r.headers.map Path.text else [substituted r parts]

/-- The texts of the placeholders that are done. -/
def fillings (r : Request) (done : List Placeholder) : Placeholder → Option Text :=
  fun p => if p ∈ done then some (p.value r).toList else none

/-- The parts of the usual arguments. -/
def defaultParts : List (List Part) :=
  [[.piece "--module".toList (by decide)], [.placeholder .module],
    [.piece "--include".toList (by decide)], [.placeholder .includeDir],
    [.piece "--output".toList (by decide)], [.placeholder .outputDir], [.placeholder .headers]]

section Expansion

variable {r : Request} {parts : List Part}

theorem braceFree_substituted (hr : r.BraceFree) (parts : List Part) :
    Text.BraceFree (substituted r parts).toList := by
  rw [substituted, String.toList_ofList]
  apply Text.braceFree_flatMap
  rintro (⟨t, plain⟩ | p) -
  · exact plain
  · exact p.braceFree_value hr

theorem braceFree_of_mem_expansion (hr : r.BraceFree) {arg : String} (h : arg ∈ expansion r parts) :
    Text.BraceFree arg.toList := by
  rw [expansion] at h
  split at h
  · obtain ⟨header, hmem, rfl⟩ := List.mem_map.mp h
    exact hr.headers header hmem
  · exact List.mem_singleton.mp h ▸ braceFree_substituted hr parts

theorem fillings_cons (r : Request) (p : Placeholder) (done : List Placeholder) :
    Function.update (fillings r done) p (some (p.value r).toList) = fillings r (p :: done) := by
  funext q
  by_cases hq : q = p
  · subst hq
    simp [fillings]
  · simp [fillings, hq]

theorem replaceString_filled (hr : r.BraceFree) (parts : List Part) {p : Placeholder}
    {done : List Placeholder} (hp : p ∉ done) {old : String} (hold : old.toList = p.text) :
    replaceString (String.ofList (parts.flatMap (Part.filled (fillings r done)))) old (p.value r) =
      String.ofList (parts.flatMap (Part.filled (fillings r (p :: done)))) := by
  have hplain : ∀ q, ∀ t ∈ fillings r done q, Text.BraceFree t := by
    intro q t ht
    obtain ⟨-, hvalue⟩ := Option.ite_none_right_eq_some.mp ht
    exact Option.some.inj hvalue ▸ q.braceFree_value hr
  rw [replaceString, String.toList_ofList, hold, Part.replaceAll_filled (if_neg hp) hplain,
    fillings_cons]

theorem fillings_all (r : Request) :
    fillings r [.headers, .outputDir, .includeDir, .module] = fun p => some (p.value r).toList := by
  funext p
  cases p <;> rfl

theorem expandArg_written (hr : r.BraceFree) (parts : List Part) :
    expandArg r (written parts) = expansion r parts := by
  rw [expansion]
  by_cases h : written parts = headersPlaceholder
  · rw [if_pos h]
    exact if_pos h
  · rw [if_neg h]
    -- the four replacements, in their order
    have hmodule := replaceString_filled hr parts (p := .module) List.not_mem_nil
      (show "\x7bmodule\x7d".toList = _ from rfl)
    have hinclude := replaceString_filled hr parts (p := .includeDir) (by decide : _ ∉ [.module])
      (show "\x7binclude\x7d".toList = _ from rfl)
    have houtput := replaceString_filled hr parts (p := .outputDir)
      (by decide : _ ∉ [.includeDir, .module]) (show "\x7boutput\x7d".toList = _ from rfl)
    have hheaders := replaceString_filled hr parts (p := .headers)
      (by decide : _ ∉ [.outputDir, .includeDir, .module]) (show headersPlaceholder.toList = _ from rfl)
    rw [fillings_all, ← houtput, ← hinclude, ← hmodule] at hheaders
    rw [substituted, ← hheaders]
    exact if_neg h

theorem expansion_headers : expansion r [.placeholder .headers] = r.headers.map Path.text :=
  if_pos (by decide)

theorem expansion_single {part : Part} (h : written [part] ≠ headersPlaceholder) :
    expansion r [part] = [String.ofList (part.filled fun p => some (p.value r).toList)] := by
  rw [expansion, if_neg h, substituted, List.flatMap_singleton]

theorem written_defaultParts : defaultParts.map written = defaultArgs := by decide

theorem expansion_defaultParts (r : Request) : defaultParts.flatMap (expansion r) =
    ["--module", r.module, "--include", r.includeDir.text, "--output", r.outputDir.text] ++
      r.headers.map Path.text := by
  simp (disch := decide) [defaultParts, expansion_single, expansion_headers, Part.filled,
    Placeholder.value]

/-- Every argument turns into what its parts stand for, with nothing left to replace, and a program
configured without arguments gets the usual ones. -/
theorem expandArgs_substitutes (program : Path) (args : List (List Part)) (hr : r.BraceFree) :
    (args ≠ [] →
      (configured program (args.map written)).expandArgs r = args.flatMap (expansion r)) ∧
    (∀ arg ∈ (configured program (args.map written)).expandArgs r, ∀ p : Placeholder,
      ¬ p.text <:+: arg.toList) ∧
    configured program [] = configured program defaultArgs ∧
    (configured program []).expandArgs r =
      ["--module", r.module, "--include", r.includeDir.text, "--output", r.outputDir.text] ++
        r.headers.map Path.text := by
  have hexpanded (args : List (List Part)) : (args.map written).flatMap (expandArg r) =
      args.flatMap (expansion r) := by
    rw [List.flatMap_map]
    exact congrArg args.flatMap (funext fun parts => expandArg_written hr parts)
  have hfree (args : List (List Part)) : ∀ arg ∈ args.flatMap (expansion r), ∀ p : Placeholder,
      ¬ p.text <:+: arg.toList := by
    intro arg harg p hp
    obtain ⟨parts, -, hmem⟩ := List.mem_flatMap.mp harg
    exact (braceFree_of_mem_expansion hr hmem).1 (hp.subset List.mem_cons_self)
  have hgiven (hne : args ≠ []) :
      (configured program (args.map written)).expandArgs r = args.flatMap (expansion r) := by
    rw [expandArgs, configured, if_neg (by simpa using hne), hexpanded]
  have hdefault : (configured program []).expandArgs r = defaultParts.flatMap (expansion r) := by
    rw [← hexpanded, written_defaultParts]
    rfl
  refine ⟨hgiven, ?_, rfl, ?_⟩
  · by_cases hne : args = []
    · rw [hne, List.map_nil, hdefault]
      exact hfree defaultParts
    · rw [hgiven hne]
      exact hfree args
  · rw [hdefault, expansion_defaultParts]

/-- Arguments with a placeholder at the end, with nothing but the headers, and with placeholders
side by side. -/
def toyArgs : List (List Part) :=
  [[.piece "-I".toList (by decide), .placeholder .includeDir], [.placeholder .headers],
    [.placeholder .module, .piece "=".toList (by decide), .placeholder .headers,
      .placeholder .outputDir, .placeholder .module]]

def toyRequest : Request :=
  { module := "json", headers := [⟨"a.h"⟩, ⟨"b.h"⟩], includeDir := ⟨"inc"⟩, outputDir := ⟨"out"⟩ }

theorem expandArgs_substitutes_toy :
    toyRequest.BraceFree ∧ toyArgs ≠ [] ∧
    toyArgs.map written = ["-I\x7binclude\x7d", "\x7bheaders\x7d",
      "\x7bmodule\x7d=\x7bheaders\x7d\x7boutput\x7d\x7bmodule\x7d"] ∧
    (configured ⟨"bindgen"⟩ (toyArgs.map written)).expandArgs toyRequest =
      ["-Iinc", "a.h", "b.h", "json=a.h,b.houtjson"] := by
  have hr : toyRequest.BraceFree := ⟨by decide, by decide, by decide, by decide⟩
  have hne : toyArgs ≠ [] := nofun
  obtain ⟨given, -⟩ := expandArgs_substitutes ⟨"bindgen"⟩ toyArgs hr
  exact ⟨hr, hne, by decide, (given hne).trans (by decide)⟩

end Expansion

end ExternalProgram

end GrammarHeaders
