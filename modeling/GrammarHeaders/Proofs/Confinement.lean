import GrammarHeaders.Proofs.Footprint
import GrammarHeaders.Proofs.Requests

namespace GrammarHeaders

variable {o : Options} {g : Generator} {s : Session} {here out l : Location}
  {files files' : Location → Prop}

namespace Disk

variable {d d' d₁ d₂ : Disk} {e : Entry}

/-- Outside of a location files are written at given locations only, and directories are made only
where nothing was. What is below the location may be changed and removed, but no symbolic link is left
anywhere. -/
structure Alters (out : Location) (files : Location → Prop) (d d' : Disk) : Prop where
  regular : d'.Regular
  cwd : d'.cwd = d.cwd
  outside : ∀ l, ¬ out <+: l → d'.tree.get? l = d.tree.get? l ∨
    d.tree.get? l = none ∧ d'.tree.HasDir l ∨ files l ∧ d'.tree.HasFile l

namespace Alters

theorem refl (hd : d.Regular) : Alters out files d d := ⟨hd, rfl, fun _ _ => .inl rfl⟩

theorem mono (h : Alters out files d d') (hf : ∀ l, ¬ out <+: l → files l → files' l) :
    Alters out files' d d' :=
  ⟨h.regular, h.cwd, fun l hl => (h.outside l hl).imp_right fun hnew =>
    hnew.imp_right fun hfile => ⟨hf l hl hfile.1, hfile.2⟩⟩

theorem trans (h : Alters out files d d₁) (h' : Alters out files d₁ d₂) :
    Alters out files d d₂ where
  regular := h'.regular
  cwd := h'.cwd.trans h.cwd
  outside l hl := by
    obtain hsame | ⟨hfree, hdir⟩ | hfile := h'.outside l hl
    · rw [Tree.HasDir, Tree.HasFile, hsame]
      exact h.outside l hl
    · obtain hsame | ⟨-, hmade⟩ | ⟨-, _, _, hwritten⟩ := h.outside l hl
      · exact .inr (.inl ⟨hsame ▸ hfree, hdir⟩)
      · exact absurd (hfree.symm.trans hmade) (by simp)
      · exact absurd (hfree.symm.trans hwritten) (by simp)
    · exact .inr (.inr hfile)

theorem get?_of_some (h : Alters out files d d') (hl : ¬ out <+: l) (hf : ¬ files l)
    (he : d.tree.get? l = some e) : d'.tree.get? l = some e := by
  obtain hsame | ⟨hfree, -⟩ | ⟨hfile, -⟩ := h.outside l hl
  · exact hsame.trans he
  · exact absurd (hfree.symm.trans he) (by simp)
  · exact absurd hfile hf

theorem hasFile_of (h : Alters out files d d') (hl : ¬ out <+: l) (hf : ¬ files l)
    (hfile : d'.tree.HasFile l) : d.tree.HasFile l := by
  obtain ⟨content, executable, hfile⟩ := hfile
  obtain hsame | ⟨-, hdir⟩ | ⟨hwritten, -⟩ := h.outside l hl
  · exact ⟨content, executable, hsame ▸ hfile⟩
  · exact absurd (hfile.symm.trans hdir) (by simp)
  · exact absurd hwritten hf

end Alters

theorem Grows.alters {dirs : Location → Prop} (h : Grows dirs files d d') (hd : d.Regular) :
    Alters out files d d' := by
  refine ⟨h.regular hd, h.cwd, fun l _ => ?_⟩
  by_cases hsame : d'.tree.get? l = d.tree.get? l
  · exact .inl hsame
  · obtain ⟨hf, -, hfile⟩ | ⟨-, hfree, hdir⟩ := h.tree.changed hsame
    · exact .inr (.inr ⟨hf, hfile⟩)
    · exact .inr (.inl ⟨hfree, hdir⟩)

end Disk

namespace Stage

variable {ε α β : Type} {x : Stage ε α}

/-- Seen from a current directory, the stage alters nothing else, whatever it comes to. -/
def Alters (here out : Location) (files : Location → Prop) (x : Stage ε α) : Prop :=
  ∀ s, s.disk.Regular → s.disk.cwd = here → Disk.Alters out files s.disk (start x s).2.disk

theorem Grows.alters {dirs : Location → Prop} (h : Grows here dirs files x) :
    Alters here out files x :=
  fun s hs hc => (h s hs hc).alters hs

theorem Reads.alters (h : Reads x) : Alters here out files x :=
  fun s hs _ => by rw [h s]; exact .refl hs

theorem Alters.mono (h : Alters here out files x) (hf : ∀ l, ¬ out <+: l → files l → files' l) :
    Alters here out files' x :=
  fun s hs hc => (h s hs hc).mono hf

theorem Alters.bind_of_gives {P : α → Prop} {k : α → Stage ε β} (h : Alters here out files x)
    (hP : Gives P x) (hk : ∀ a, P a → Alters here out files (k a)) :
    Alters here out files (x >>= k) := by
  intro s hs hc
  have hx := h s hs hc
  rw [start_bind]
  cases hr : start x s with
  | mk r s' =>
    rw [hr] at hx
    cases r with
    | error e => exact hx
    | ok a => exact hx.trans (hk a (hP s a s' hr) s' hx.regular (hx.cwd.trans hc))

theorem Alters.bind {k : α → Stage ε β} (h : Alters here out files x)
    (hk : ∀ a, Alters here out files (k a)) : Alters here out files (x >>= k) :=
  h.bind_of_gives (P := fun _ => True) (fun _ _ _ _ => trivial) fun a _ => hk a

end Stage

/-- A generator that writes below a directory only, and leaves no symbolic link there. It may make
directories elsewhere, such as those on the way there, but it has no part in keeping the requests. -/
structure Generator.StaysIn (g : Generator) (out : Path) : Prop where
  discreet : g.Discreet
  alters : ∀ r here, Stage.Alters here (out.destination here) (fun _ => False) (g.answer r)

theorem Generator.StaysIn.alters_ask {out : Path} (hg : g.StaysIn out) (r : Request) :
    Stage.Alters here (out.destination here) files (g.ask r) := by
  intro s hs hc
  rw [start_ask]
  exact (hg.alters r here { s with asked := s.asked ++ [r.asked s.disk] } hs hc).mono
    fun _ _ => False.elim

/-- A run is laid out so that nothing gets in the way of its headers: there are no links, the
checkouts of the grammars, the headers and the bindings are apart, and the generator keeps to the
directory of the bindings. -/
structure Options.Separates (o : Options) (g : Generator) (d : Disk) : Prop where
  regular : d.Regular
  grammars : ∀ repo ∈ o.grammarRepos,
    (repo.destination d.cwd).Apart (o.headersOut.destination d.cwd)
  checkouts : ∀ repo ∈ o.grammarRepos,
    (repo.destination d.cwd).Apart (o.bindingsOut.destination d.cwd)
  generator : g.StaysIn o.bindingsOut
  bindings : (o.bindingsOut.destination d.cwd).Apart (o.headersOut.destination d.cwd)

theorem rootStage_alters (hg : g.StaysIn o.bindingsOut) (hs : s.disk.Regular) :
    Disk.Alters (o.bindingsOut.destination s.disk.cwd) (fun _ => True) s.disk
      (Run.afterRoot o g s).disk := by
  have hreads := RootLibrary.reads_discover o.rootRepo o.config.layout s
  rw [Run.afterRoot]
  obtain ⟨-, failure, t, hrun, ht⟩ | ⟨root, t, hroot, hrun⟩ := Run.rootStage_cases o g s
  · rw [hrun]
    obtain rfl | ⟨fault, hfault⟩ := ht
    · exact .refl hs
    · rw [hfault] at hreads
      dsimp only at hreads ⊢
      rw [hreads]
      exact .refl hs
  · rw [hroot] at hreads
    have hexport : Stage.Alters s.disk.cwd (o.bindingsOut.destination s.disk.cwd) (fun _ => True)
        (Run.askAndExport o g root) :=
      (Stage.Reads.log _).alters.bind fun _ => (hg.alters_ask _).bind fun _ =>
        ((grows_copies_exportRootHeaders root _ _).alters.mono fun _ _ _ => trivial).bind fun _ =>
          (Stage.Reads.pure _).alters
    have ha := hexport t (hreads ▸ hs) (congrArg Disk.cwd hreads)
    rw [hrun]
    rwa [hreads] at ha

end GrammarHeaders
