import GrammarHeaders.Proofs.Requests
import GrammarHeaders.Workers
import Mathlib.Logic.Function.Iterate

namespace GrammarHeaders

variable {o : Options} {g : Generator} {u v : Session} {works : List Work} {w next : Work}
  {result : ModuleResult} {failure : Failure} {schedule : List Nat} {i n : Nat}

namespace Work

/-- A grammar and the session after the next call for it. -/
def stepped (o : Options) (g : Generator) (p : Work × Session) : Work × Session :=
  match Stage.start (p.1.advance o g) p.2 with
  | (.ok next, u) => (next, u)
  | (.error failure, u) => (ended (.error failure), u)

theorem stepped_of_ok (h : Stage.start (w.advance o g) u = (.ok next, v)) :
    stepped o g (w, u) = (next, v) := by
  rw [stepped, h]

theorem stepped_of_error (h : Stage.start (w.advance o g) u = (.error failure, v)) :
    stepped o g (w, u) = (ended (.error failure), v) := by
  rw [stepped, h]

@[simp] theorem stepped_ended : stepped o g (ended result, u) = (ended result, u) := rfl

theorem start_step (w : Work) (u : Session) :
    Stage.start (w.step o g) u = (.ok (stepped o g (w, u)).1, (stepped o g (w, u)).2) := by
  have hattempt : Stage.start (attempt (w.advance o g)) u =
      (.ok (Stage.start (w.advance o g) u).1, (Stage.start (w.advance o g) u).2) := rfl
  rw [step, Stage.start_bind_of_ok hattempt]
  rcases hw : Stage.start (w.advance o g) u with ⟨failure | next, v⟩
  · rw [stepped_of_error hw]
    rfl
  · rw [stepped_of_ok hw]
    rfl

/-- What a call does that succeeds. -/
inductive Advances (o : Options) (g : Generator) : Work → Session → Work → Session → Prop where
  | discover {repo : Path} {m : LanguageModule} {u v : Session}
      (h : Stage.start (LanguageModule.discover repo) u = (.ok m, v)) :
      Advances o g (waiting repo) u (found m) v
  | extract {m : LanguageModule} {header : Header} {u v : Session}
      (h : Stage.start (extractHeader m o.config) u = (.ok header, v)) :
      Advances o g (found m) u (extracted m header) v
  | place {m : LanguageModule} {header : Header} {dir : Path} {u v : Session}
      (h : Stage.start (Action.ensureModuleDir o.headersOut header.moduleName) u = (.ok dir, v)) :
      Advances o g (extracted m header) u
        (placed m (dir / Header.fileName header.moduleName) header.text) v
  | write {m : LanguageModule} {path : Path} {text : Text} {u v : Session}
      (h : Stage.start (Action.writeText path text) u = (.ok (), v)) :
      Advances o g (placed m path text) u (written m path) v
  | ask {m : LanguageModule} {path : Path} {outcome : Outcome} {u v : Session}
      (h : Stage.start (g.ask (moduleRequest o m path)) u = (.ok outcome, v)) :
      Advances o g (written m path) u (bound m path outcome) v
  | read {m : LanguageModule} {path : Path} {outcome : Outcome} {text : Text} {u : Session}
      (h : u.disk.readText path = .ok text) :
      Advances o g (bound m path outcome) u (read m path outcome text) u
  | annotate {m : LanguageModule} {path : Path} {outcome : Outcome} {text : Text} {u v : Session}
      {published : LanguageHeader}
      (h : (o.config.languageAnnotator.annotate text).text = text ∧ v.disk = u.disk ∨
        u.disk.write path (.text (o.config.languageAnnotator.annotate text).text) = .ok v.disk) :
      Advances o g (read m path outcome text) u (ended (.ok (published, outcome))) v
  | stay {result : ModuleResult} {u : Session} : Advances o g (ended result) u (ended result) u

theorem Advances.of_written {m : LanguageModule} {path : Path}
    (h : Advances o g (written m path) u next v) : ∃ outcome, next = bound m path outcome := by
  cases h with
  | ask h => exact ⟨_, rfl⟩

theorem advances_of_ok (h : Stage.start (w.advance o g) u = (.ok next, v)) :
    Advances o g w u next v := by
  cases w with
  | waiting repo =>
    obtain ⟨m, hfound, rfl⟩ := Stage.start_bind_pure_eq_ok.mp h
    exact .discover (Stage.start_within_eq_ok.mp hfound)
  | found m =>
    obtain ⟨header, hheader, rfl⟩ := Stage.start_bind_pure_eq_ok.mp h
    exact .extract hheader
  | extracted m header =>
    obtain ⟨dir, hdir, rfl⟩ := Stage.start_bind_pure_eq_ok.mp h
    exact .place hdir
  | placed m path text =>
    obtain ⟨_, hwrite, rfl⟩ := Stage.start_bind_pure_eq_ok.mp h
    exact .write hwrite
  | written m path =>
    obtain ⟨outcome, hask, rfl⟩ := Stage.start_bind_pure_eq_ok.mp h
    exact .ask hask
  | bound m path outcome =>
    obtain ⟨text, hread, rfl⟩ := Stage.start_bind_pure_eq_ok.mp h
    obtain ⟨htext, rfl⟩ := Action.start_readText_eq_ok.mp hread
    exact .read htext
  | read m path outcome text =>
    dsimp only [advance] at h
    split at h
    · obtain ⟨_, t, hwrite, h⟩ := Stage.start_bind_eq_ok.mp h
      obtain ⟨_, hlog, rfl⟩ := Stage.start_bind_pure_eq_ok.mp h
      have hdisk := Action.start_writeText_eq_ok hwrite
      obtain ⟨-, rfl⟩ := Prod.mk.inj hlog
      exact .annotate (.inr hdisk)
    · rename_i hsame
      obtain ⟨_, hlog, rfl⟩ := Stage.start_bind_pure_eq_ok.mp h
      obtain ⟨-, rfl⟩ := Prod.mk.inj hlog
      exact .annotate (.inl ⟨not_not.mp hsame, rfl⟩)
  | ended result =>
    obtain ⟨hnext, rfl⟩ := Prod.mk.inj h
    obtain rfl := Except.ok.inj hnext
    exact .stay

theorem stepped_cases (o : Options) (g : Generator) (w : Work) (u : Session) :
    (∃ failure, (stepped o g (w, u)).1 = ended (.error failure)) ∨
      Advances o g w u (stepped o g (w, u)).1 (stepped o g (w, u)).2 := by
  rcases hw : Stage.start (w.advance o g) u with ⟨failure | next, v⟩
  · exact .inl ⟨failure, by rw [stepped_of_error hw]⟩
  · exact .inr (by rw [stepped_of_ok hw]; exact advances_of_ok hw)

theorem stepped_snd (w : Work) (u : Session) :
    (stepped o g (w, u)).2 = (Stage.start (w.advance o g) u).2 := by
  rcases hw : Stage.start (w.advance o g) u with ⟨failure | next, v⟩
  · rw [stepped_of_error hw]
  · rw [stepped_of_ok hw]

/-- What the next call asks. -/
def question? (o : Options) (d : Disk) : Work → Option Asked
  | written m path => some ((moduleRequest o m path).asked d)
  | _ => none

theorem asked_stepped (hg : g.Discreet) (w : Work) (u : Session) :
    (stepped o g (w, u)).2.asked = u.asked ++ (w.question? o u.disk).toList := by
  have hsilent : ∀ {x : Action Work}, Stage.Silent x →
      (Stage.start x u).2.asked = u.asked ++ [] := fun h => by rw [h u, List.append_nil]
  rw [stepped_snd]
  cases w with
  | waiting repo =>
    exact hsilent (((LanguageModule.silent_discover repo).within _).bind fun _ => .pure _)
  | found m => exact hsilent ((silent_extractHeader m _).bind fun _ => .pure _)
  | extracted m header =>
    exact hsilent ((Action.silent_ensureModuleDir _ _).bind fun _ => .pure _)
  | placed m path text => exact hsilent ((Action.silent_change _ _).bind fun _ => .pure _)
  | written m path => exact hg.ask_bind (moduleRequest o m path) (fun _ => .pure _) u
  | bound m path outcome => exact hsilent ((Action.silent_readText path).bind fun _ => .pure _)
  | read m path outcome text =>
    refine hsilent ?_
    dsimp only [advance]
    split
    · exact (Action.silent_change _ _).bind fun _ => (Stage.Silent.log _).bind fun _ => .pure _
    · exact (Stage.Silent.log _).bind fun _ => .pure _
  | ended result => exact hsilent (.pure _)

/-- What is left to do for a grammar. -/
def rest (o : Options) (g : Generator) : Work → Action (LanguageHeader × Outcome)
  | waiting repo => runModule o g repo
  | found m => writeLanguageHeader m o.headersOut o.config >>= Run.bindAndAnnotate o g m
  | extracted m header => do
    let dir ← Action.ensureModuleDir o.headersOut header.moduleName
    let path := dir / Header.fileName header.moduleName
    Action.writeText path header.text
    Run.bindAndAnnotate o g m path
  | placed m path text => do
    Action.writeText path text
    Run.bindAndAnnotate o g m path
  | written m path => Run.bindAndAnnotate o g m path
  | bound m path outcome => do return (← annotateLanguageHeader m path o.config, outcome)
  | read m path outcome text => do
    let annotated := o.config.languageAnnotator.annotate text
    if annotated.text ≠ text then Action.writeText path annotated.text
    Stage.log (.info s!"generated {path} ({annotated.prefixed} exported declaration(s))")
    return (⟨m.name, path, annotated.prefixed⟩, outcome)
  | ended result => Stage.ofExcept result

theorem rest_eq (w : Work) : w.rest o g = w.advance o g >>= rest o g := by
  cases w with
  | waiting repo => simp [rest, advance, Run.runModule_eq_discover]
  | found m => simp [rest, advance, writeLanguageHeader]
  | extracted m header => simp [rest, advance]
  | placed m path text => simp [rest, advance]
  | written m path => simp [rest, advance, Run.bindAndAnnotate, moduleRequest]
  | bound m path outcome =>
    simp only [rest, advance, annotateLanguageHeader, Action.updateInPlace, bind_assoc, pure_bind]
    congr 1
    funext text
    by_cases h : (o.config.languageAnnotator.annotate text).text = text <;> simp [h]
  | read m path outcome text =>
    by_cases h : (o.config.languageAnnotator.annotate text).text = text <;>
      simp [rest, advance, h, Stage.ofExcept] <;> rfl
  | ended result => rfl

/-- How many calls are left. -/
def left : Work → Nat
  | waiting _ => calls
  | found _ => 6
  | extracted .. => 5
  | placed .. => 4
  | written .. => 3
  | bound .. => 2
  | read .. => 1
  | ended _ => 0

theorem left_le (w : Work) : w.left ≤ calls := by
  cases w <;> simp [left, calls]

theorem Advances.left_le (h : Advances o g w u next v) : next.left ≤ w.left - 1 := by
  cases h <;> simp [left, calls]

theorem eq_ended_of_left (h : w.left = 0) : ∃ result, w = ended result := by
  cases w with
  | ended result => exact ⟨result, rfl⟩
  | waiting | found | extracted | placed | written | bound | read => cases h

theorem iterate_stepped (h : w.left ≤ n) : (stepped o g)^[n] (w, u) =
    (ended (Stage.start (w.rest o g) u).1, (Stage.start (w.rest o g) u).2) := by
  induction n generalizing w u with
  | zero =>
    obtain ⟨result, rfl⟩ := eq_ended_of_left (Nat.le_zero.mp h)
    rfl
  | succ n ih =>
    rw [Function.iterate_succ_apply, rest_eq]
    rcases hw : Stage.start (w.advance o g) u with ⟨failure | next, v⟩
    · have hleft : (ended (.error failure)).left ≤ n := Nat.zero_le n
      rw [stepped_of_error hw, ih hleft, Stage.start_bind_of_error hw]
      rfl
    · have hleft := (advances_of_ok hw).left_le
      rw [stepped_of_ok hw, ih (by omega), Stage.start_bind_of_ok hw]

end Work

namespace Run

def pass (o : Options) (g : Generator) (p : List Work × Session) (i : Nat) : List Work × Session :=
  match p.1[i]? with
  | some w => (p.1.set i (Work.stepped o g (w, p.2)).1, (Work.stepped o g (w, p.2)).2)
  | none => p

def passes (o : Options) (g : Generator) (schedule : List Nat) (p : List Work × Session) :
    List Work × Session :=
  schedule.foldl (pass o g) p

theorem pass_of_some (h : works[i]? = some w) : pass o g (works, u) i =
    (works.set i (Work.stepped o g (w, u)).1, (Work.stepped o g (w, u)).2) := by
  rw [pass, h]

theorem pass_of_none (h : works[i]? = none) : pass o g (works, u) i = (works, u) := by
  rw [pass, h]

@[simp] theorem passes_nil (p : List Work × Session) : passes o g [] p = p := rfl

@[simp] theorem passes_cons (p : List Work × Session) :
    passes o g (i :: schedule) p = passes o g schedule (pass o g p i) := rfl

theorem passes_append (schedule more : List Nat) (p : List Work × Session) :
    passes o g (schedule ++ more) p = passes o g more (passes o g schedule p) :=
  List.foldl_append

theorem passes_take_succ {p : List Work × Session} (h : schedule[n]? = some i) :
    passes o g (schedule.take (n + 1)) p = pass o g (passes o g (schedule.take n) p) i := by
  rw [List.take_add_one, h, passes_append]
  rfl

theorem length_pass (p : List Work × Session) (i : Nat) : (pass o g p i).1.length = p.1.length := by
  unfold pass
  split
  · exact List.length_set
  · rfl

theorem length_passes (schedule : List Nat) (p : List Work × Session) :
    (passes o g schedule p).1.length = p.1.length := by
  induction schedule generalizing p with
  | nil => rfl
  | cons i rest ih => rw [passes_cons, ih, length_pass]

theorem asked_passes (hg : g.Discreet) (schedule : List Nat) (p : List Work × Session) :
    p.2.asked <+: (passes o g schedule p).2.asked := by
  induction schedule generalizing p with
  | nil => exact List.prefix_refl _
  | cons i rest ih =>
    refine List.IsPrefix.trans ?_ (ih _)
    unfold pass
    split
    · rw [Work.asked_stepped hg]
      exact List.prefix_append _ _
    · exact List.prefix_refl _

theorem start_runSchedule (schedule : List Nat) (works : List Work) (u : Session) :
    Stage.start (runSchedule o g schedule works) u =
      (.ok (passes o g schedule (works, u)).1, (passes o g schedule (works, u)).2) := by
  induction schedule generalizing works u with
  | nil => rfl
  | cons i rest ih =>
    rw [runSchedule, passes_cons]
    cases h : works[i]? with
    | none => rw [pass_of_none h, ih]
    | some w => rw [pass_of_some h, Stage.start_bind_of_ok (Work.start_step w u), ih]

theorem passes_replicate (h : works[i]? = some w) : passes o g (List.replicate n i) (works, u) =
    (works.set i ((Work.stepped o g)^[n] (w, u)).1, ((Work.stepped o g)^[n] (w, u)).2) := by
  induction n generalizing works w u with
  | zero =>
    obtain ⟨hi, rfl⟩ := List.getElem?_eq_some_iff.mp h
    simp
  | succ n ih =>
    have hset : (works.set i (Work.stepped o g (w, u)).1)[i]? =
        some (Work.stepped o g (w, u)).1 := by
      rw [List.getElem?_set_self (List.getElem?_eq_some_iff.mp h).1]
    rw [List.replicate_succ, passes_cons, pass_of_some h, ih hset, List.set_set,
      Function.iterate_succ_apply]

theorem passes_map_succ (schedule : List Nat) (first : Work) (works : List Work) (u : Session) :
    passes o g (schedule.map (· + 1)) (first :: works, u) =
      (first :: (passes o g schedule (works, u)).1, (passes o g schedule (works, u)).2) := by
  induction schedule generalizing works u with
  | nil => rfl
  | cons i rest ih =>
    rw [List.map_cons, passes_cons, passes_cons]
    cases h : works[i]? with
    | none =>
      have hnone : (first :: works)[i + 1]? = none := h
      rw [pass_of_none h, pass_of_none hnone, ih]
    | some w =>
      have hsome : (first :: works)[i + 1]? = some w := h
      rw [pass_of_some h, pass_of_some hsome, List.set_cons_succ, ih]

theorem inTurn_succ (n : Nat) :
    inTurn (n + 1) = List.replicate Work.calls 0 ++ (inTurn n).map (· + 1) := by
  rw [inTurn, List.range_succ_eq_map, List.flatMap_cons, List.flatMap_map, inTurn, List.map_flatMap]
  simp only [List.map_replicate, Nat.succ_eq_add_one]

theorem passes_inTurn (works : List Work) (u : Session) :
    ∃ results : List ModuleResult, (passes o g (inTurn works.length) (works, u)).1 = results.map Work.ended ∧
      results.length = works.length := by
  induction works generalizing u with
  | nil => exact ⟨[], rfl, rfl⟩
  | cons w rest ih =>
    rw [List.length_cons, inTurn_succ, passes_append, passes_replicate rfl,
      Work.iterate_stepped w.left_le, List.set_cons_zero, passes_map_succ]
    obtain ⟨results, hresults, hlength⟩ := ih (Stage.start (w.rest o g) u).2
    exact ⟨_ :: results, by rw [hresults, List.map_cons], congrArg (· + 1) hlength⟩

theorem filterMap_result?_ended (results : List ModuleResult) :
    (results.map Work.ended).filterMap Work.result? = results := by
  have hid : Work.result? ∘ Work.ended = some := rfl
  rw [List.filterMap_map, hid, List.filterMap_some]

theorem passes_inTurn_ofClaim (claims : List (Except Failure Path)) (u : Session) :
    ∃ results t, passes o g (inTurn claims.length) (claims.map .ofClaim, u) =
        (results.map Work.ended, t) ∧
      Stage.start (runModules o g claims) u = (.ok results, t) := by
  induction claims generalizing u with
  | nil => exact ⟨[], u, rfl, rfl⟩
  | cons claim rest ih =>
    obtain ⟨results, t, hpasses, hrun⟩ := ih (worked o g u claim)
    -- `worked` is the session in which the loop goes on, whether the grammar has failed or not.
    have hwork : Stage.start ((Work.ofClaim claim).rest o g) u =
        ((Stage.start ((Work.ofClaim claim).rest o g) u).1, worked o g u claim) := by
      cases claim <;> rfl
    refine ⟨(Stage.start ((Work.ofClaim claim).rest o g) u).1 :: results, t, ?_, ?_⟩
    · rw [List.length_cons, inTurn_succ, passes_append, List.map_cons, passes_replicate rfl,
        Work.iterate_stepped (Work.left_le _), List.set_cons_zero, passes_map_succ, hwork, hpasses,
        List.map_cons]
    · cases claim with
      | error failure => exact start_runModules_error hrun
      | ok repo => exact start_runModules_ok rfl hrun

end Run

theorem start_runModulesBy_nil (claims : List (Except Failure Path)) (u : Session) :
    Stage.start (runModulesBy o g [] claims) u = Stage.start (runModules o g claims) u := by
  obtain ⟨results, t, hpasses, hrun⟩ := Run.passes_inTurn_ofClaim claims u
  rw [runModulesBy, List.nil_append, Stage.start_bind_of_ok (Run.start_runSchedule ..), hpasses, hrun]
  exact congrArg (fun r => (Except.ok r, t)) (Run.filterMap_result?_ended results)

theorem start_runModulesBy (schedule : List Nat) (claims : List (Except Failure Path)) (u : Session) :
    ∃ results t, Stage.start (runModulesBy o g schedule claims) u = (.ok results, t) ∧
      Run.passes o g (schedule ++ inTurn claims.length) (claims.map .ofClaim, u) =
        (results.map Work.ended, t) ∧
      results.length = claims.length := by
  have hlength : (Run.passes o g schedule (claims.map .ofClaim, u)).1.length = claims.length := by
    rw [Run.length_passes, List.length_map]
  obtain ⟨results, hresults, hcount⟩ := Run.passes_inTurn (o := o) (g := g)
    (Run.passes o g schedule (claims.map .ofClaim, u)).1
    (Run.passes o g schedule (claims.map .ofClaim, u)).2
  rw [hlength] at hresults hcount
  rw [← Run.passes_append] at hresults
  refine ⟨results, (Run.passes o g (schedule ++ inTurn claims.length) (claims.map .ofClaim, u)).2,
    ?_, Prod.ext hresults rfl, hcount⟩
  rw [runModulesBy, Stage.start_bind_of_ok (Run.start_runSchedule ..), hresults]
  exact congrArg (fun r => (Except.ok r, _)) (Run.filterMap_result?_ended results)

theorem start_generate_eq (o : Options) (g : Generator) (s : Session) :
    Stage.start (generate o g) s = Stage.start (generateWith o g (runModulesBy o g [])) s := by
  have hloop : runModulesBy o g [] = runModules o g :=
    funext fun claims => funext fun u => start_runModulesBy_nil claims u
  rw [generate, hloop]

end GrammarHeaders
