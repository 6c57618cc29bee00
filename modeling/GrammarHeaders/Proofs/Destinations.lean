import GrammarHeaders.Disk

namespace GrammarHeaders

namespace Text

theorem splitOn_eq (sep : Char) (t : Text) : splitOn sep t = List.splitOn sep t := by
  induction t with
  | nil => rfl
  | cons c t ih =>
    rw [splitOn, List.splitOn_cons_eq_if_modifyHead, ih]
    by_cases h : c = sep
    · simp [h]
    · obtain ⟨piece, rest, he⟩ := List.exists_cons_of_ne_nil (List.splitOn_ne_nil sep t)
      simp [h, he]

theorem not_mem_of_mem_splitOn {sep : Char} {t piece : Text} (h : piece ∈ splitOn sep t) :
    sep ∉ piece := by
  induction t generalizing piece with
  | nil =>
    have hp : piece = [] := by simpa [splitOn] using h
    simp [hp]
  | cons c t ih =>
    rw [splitOn] at h
    split at h
    · rcases List.mem_cons.mp h with rfl | h
      · exact List.not_mem_nil
      · exact ih h
    · rename_i hc
      split at h
      · have hp : piece = [c] := by simpa using h
        simp [hp, Ne.symm hc]
      · rename_i first rest he
        rcases List.mem_cons.mp h with rfl | h
        · have hf : sep ∉ first := ih (he ▸ List.mem_cons_self)
          simp [Ne.symm hc, hf]
        · exact ih (he ▸ List.mem_cons_of_mem _ h)

end Text

/-- A name that an entry of a directory can have. -/
structure IsName (n : String) : Prop where
  ne_empty : n ≠ ""
  ne_here : n ≠ "."
  ne_up : n ≠ ".."
  no_separator : '/' ∉ n.toList

theorem isName_iff {n : String} : IsName n ↔ n ≠ "" ∧ n ≠ "." ∧ n ≠ ".." ∧ '/' ∉ n.toList where
  mp h := ⟨h.ne_empty, h.ne_here, h.ne_up, h.no_separator⟩
  mpr h := ⟨h.1, h.2.1, h.2.2.1, h.2.2.2⟩

instance (n : String) : Decidable (IsName n) := decidable_of_iff _ isName_iff.symm

namespace Location

/-- Where names lead from a location. -/
def lead : Location → List String → Location
  | here, [] => here
  | here, name :: rest => if name = ".." then lead here.dropLast rest else lead (here ++ [name]) rest

/-- The locations that names enter on the way. -/
def entered : Location → List String → List Location
  | _, [] => []
  | here, name :: rest =>
    if name = ".." then entered here.dropLast rest
    else (here ++ [name]) :: entered (here ++ [name]) rest

/-- The locations that are left upwards on the way. -/
def exits : Location → List String → List Location
  | _, [] => []
  | here, name :: rest =>
    if name = ".." then here :: exits here.dropLast rest else exits (here ++ [name]) rest

theorem lead_append (here : Location) (names more : List String) :
    lead here (names ++ more) = lead (lead here names) more := by
  induction names generalizing here with
  | nil => rfl
  | cons name rest ih => simp only [List.cons_append, lead, ih, apply_ite (fun l => lead l more)]

theorem entered_append (here : Location) (names more : List String) :
    entered here (names ++ more) = entered here names ++ entered (lead here names) more := by
  induction names generalizing here with
  | nil => rfl
  | cons name rest ih =>
    simp only [List.cons_append, entered, lead, ih]
    split <;> rfl

theorem prefix_lead_or_mem_exits {l here : Location} (names : List String) (h : l <+: here) :
    l <+: lead here names ∨ l ∈ exits here names := by
  induction names generalizing here with
  | nil => exact .inl h
  | cons name rest ih =>
    rw [lead, exits]
    split
    · by_cases he : l = here
      · exact .inr (he ▸ List.mem_cons_self)
      · have hl : l <+: here.dropLast := by
          obtain ⟨tail, rfl⟩ := h
          have ht : tail ≠ [] := fun hn => he (by simp [hn])
          exact ⟨tail.dropLast, (List.dropLast_append_of_ne_nil ht).symm⟩
        exact (ih hl).imp_right (List.mem_cons_of_mem _)
    · exact ih (h.trans (List.prefix_append here [name]))

theorem prefix_lead_or_mem_exits_of_mem_entered {l here : Location} {names : List String}
    (h : l ∈ entered here names) : l <+: lead here names ∨ l ∈ exits here names := by
  induction names generalizing here with
  | nil => cases h
  | cons name rest ih =>
    rw [entered] at h
    rw [lead, exits]
    split at h
    · rename_i hn
      rw [if_pos hn, if_pos hn]
      exact (ih h).imp_right (List.mem_cons_of_mem _)
    · rename_i hn
      rw [if_neg hn, if_neg hn]
      rcases List.mem_cons.mp h with rfl | h
      · exact prefix_lead_or_mem_exits rest (List.prefix_refl _)
      · exact ih h

theorem prefix_or_mem_entered_of_mem_exits {l here : Location} {names : List String}
    (h : l ∈ exits here names) : l <+: here ∨ l ∈ entered here names := by
  induction names generalizing here with
  | nil => cases h
  | cons name rest ih =>
    rw [exits] at h
    rw [entered]
    split at h
    · rename_i hn
      rw [if_pos hn]
      rcases List.mem_cons.mp h with rfl | h
      · exact .inl (List.prefix_refl _)
      · exact (ih h).imp_left fun hl => hl.trans (List.dropLast_prefix here)
    · rename_i hn
      rw [if_neg hn]
      rcases ih h with hl | hl
      · rcases List.prefix_concat_iff.mp hl with rfl | hl
        · exact .inr List.mem_cons_self
        · exact .inl hl
      · exact .inr (List.mem_cons_of_mem _ hl)

end Location

namespace Path

variable {p q : Path} {n : String} {here : Location}

/-- The pieces of a path that move. -/
def trail (p : Path) : List String := p.pieces.filter fun piece => !isIdle piece

/-- Where a path leads, seen from a location. -/
def destination (here : Location) (p : Path) : Location :=
  Location.lead (Disk.startOf here p.text) p.trail

/-- The locations that a path enters. -/
def entered (here : Location) (p : Path) : List Location :=
  Location.entered (Disk.startOf here p.text) p.trail

/-- The locations that a path leaves by `..`. -/
def exits (here : Location) (p : Path) : List Location :=
  Location.exits (Disk.startOf here p.text) p.trail

theorem prefix_destination_or_mem_exits {l : Location} (h : l ∈ p.entered here) :
    l <+: p.destination here ∨ l ∈ p.exits here :=
  Location.prefix_lead_or_mem_exits_of_mem_entered h

theorem pieces_of_not_mem (h : '/' ∉ n.toList) : (⟨n⟩ : Path).pieces = [n] := by
  simp [pieces, Text.splitOn_eq, List.splitOn_eq_singleton h]

theorem pieces_append (a b : String) :
    (⟨a ++ "/" ++ b⟩ : Path).pieces = (⟨a⟩ : Path).pieces ++ (⟨b⟩ : Path).pieces := by
  have hl : (a ++ "/" ++ b).toList = a.toList ++ '/' :: b.toList := by simp
  simp only [pieces, hl, Text.splitOn_eq, List.splitOn_append_cons_self, List.map_append]

theorem pieces_ne_nil (p : Path) : p.pieces ≠ [] := by
  simp [pieces, Text.splitOn_eq]

theorem no_separator_of_mem_pieces (h : n ∈ p.pieces) : '/' ∉ n.toList := by
  obtain ⟨piece, hp, rfl⟩ := List.mem_map.mp h
  rw [String.toList_ofList]
  exact Text.not_mem_of_mem_splitOn hp

theorem pieces_ofPieces {ps : List String} (hne : ps ≠ []) (h : ∀ n ∈ ps, '/' ∉ n.toList) :
    (ofPieces ps).pieces = ps := by
  have hs : List.splitOn '/' (['/'].intercalate (ps.map String.toList)) = ps.map String.toList := by
    apply List.splitOn_intercalate
    · intro l hl
      obtain ⟨n, hn, rfl⟩ := List.mem_map.mp hl
      exact h n hn
    · simpa using hne
  simp [pieces, ofPieces, Text.splitOn_eq, hs]

theorem trail_append (a b : String) :
    (⟨a ++ "/" ++ b⟩ : Path).trail = (⟨a⟩ : Path).trail ++ (⟨b⟩ : Path).trail := by
  simp only [trail, pieces_append, List.filter_append]

theorem trail_name (hn : IsName n) : (⟨n⟩ : Path).trail = [n] := by
  simp [trail, pieces_of_not_mem hn.no_separator, isIdle, hn.ne_empty, hn.ne_here]

theorem exists_eq_append_separator {a : String} (h : a.toList.getLast? = some '/') :
    ∃ b : String, a = b ++ "/" := by
  obtain ⟨front, hf⟩ := List.getLast?_eq_some_iff.mp h
  exact ⟨String.ofList front, String.toList_inj.mp (by simp [hf])⟩

theorem div_eq (hn : IsName n) (p : Path) :
    p / n = if p.text = "" ∨ p.text.toList.getLast? = some '/' then ⟨p.text ++ n⟩
      else ⟨p.text ++ "/" ++ n⟩ := by
  have hq : ¬ (isAbsolute ⟨n⟩) := by
    intro h
    exact hn.no_separator (List.mem_of_mem_head? (by simpa [isAbsolute] using h))
  show join p ⟨n⟩ = _
  rw [join, if_neg hq]
  simp only [Bool.or_eq_true, beq_iff_eq]

theorem trail_div (hn : IsName n) (p : Path) : (p / n).trail = p.trail ++ [n] := by
  rw [div_eq hn]
  split
  · rename_i h
    obtain ⟨text⟩ := p
    rcases h with h | h
    · have he : text = "" := h
      have hnil : (⟨""⟩ : Path).trail = [] := by decide
      rw [he, String.empty_append, trail_name hn, hnil, List.nil_append]
    · obtain ⟨b, rfl⟩ := exists_eq_append_separator h
      have hb : (⟨b ++ "/"⟩ : Path).trail = (⟨b⟩ : Path).trail := by
        have he : b ++ "/" = b ++ "/" ++ "" := by simp
        have hnil : (⟨""⟩ : Path).trail = [] := by decide
        rw [he, trail_append, hnil, List.append_nil]
      rw [hb, ← trail_name hn]
      exact trail_append b n
  · rw [← trail_name hn]
    exact trail_append p.text n

theorem startOf_div (hn : IsName n) (p : Path) (here : Location) :
    Disk.startOf here (p / n).text = Disk.startOf here p.text := by
  have hhead : n.toList.head? ≠ some '/' := fun h => hn.no_separator (List.mem_of_mem_head? h)
  obtain ⟨text⟩ := p
  rw [div_eq hn, Disk.startOf, Disk.startOf]
  by_cases he : text = ""
  · subst he
    simp [hhead]
  · have ht : text.toList ≠ [] := by simpa using he
    obtain ⟨c, cs, hc⟩ := List.exists_cons_of_ne_nil ht
    split <;> simp [hc]

theorem destination_div (hn : IsName n) (p : Path) (here : Location) :
    (p / n).destination here = p.destination here ++ [n] := by
  rw [destination, startOf_div hn, trail_div hn, Location.lead_append]
  simp [Location.lead, hn.ne_up, destination]

theorem entered_div (hn : IsName n) (p : Path) (here : Location) :
    (p / n).entered here = p.entered here ++ [p.destination here ++ [n]] := by
  rw [entered, startOf_div hn, trail_div hn, Location.entered_append]
  simp [Location.entered, hn.ne_up, entered, destination]

theorem destination_foldl {names : List String} (h : ∀ n ∈ names, IsName n) (p : Path)
    (here : Location) : (names.foldl (· / ·) p).destination here = p.destination here ++ names := by
  induction names generalizing p with
  | nil => simp
  | cons n rest ih =>
    rw [List.foldl_cons, ih fun m hm => h m (List.mem_cons_of_mem _ hm),
      destination_div (h n List.mem_cons_self), List.append_assoc, List.singleton_append]

theorem filter_dropIdleEnd (pieces : List String) :
    (dropIdleEnd pieces).filter (fun piece => !isIdle piece) =
      pieces.filter fun piece => !isIdle piece := by
  have hd : ∀ l : List String, (l.dropWhile isIdle).filter (fun piece => !isIdle piece) =
      l.filter fun piece => !isIdle piece := by
    intro l
    induction l with
    | nil => rfl
    | cons piece l ih =>
      by_cases h : isIdle piece
      · simp [h, ih]
      · simp [h]
  rw [dropIdleEnd, List.filter_reverse, hd, List.filter_reverse, List.reverse_reverse]

theorem dropIdleEnd_subset (pieces : List String) : dropIdleEnd pieces ⊆ pieces := by
  intro n hn
  rw [dropIdleEnd, List.mem_reverse] at hn
  exact List.mem_reverse.mp ((List.dropWhile_sublist _).subset hn)

theorem pieces_ofKept {first : String} {kept : List String} (hf : '/' ∉ first.toList)
    (h : ∀ n ∈ kept, '/' ∉ n.toList) :
    (ofKept first kept).pieces = if first = "" ∧ kept = [] then ["", ""] else first :: kept := by
  rw [ofKept]
  split
  · rename_i he
    rw [if_pos (by simpa using he)]
    decide
  · rename_i he
    rw [if_neg (by simpa using he), pieces_ofPieces (by simp)]
    intro n hn
    rcases List.mem_cons.mp hn with rfl | hn
    · exact hf
    · exact h n hn

theorem trail_ofKept {first : String} {kept : List String} (hf : '/' ∉ first.toList)
    (h : ∀ n ∈ kept, '/' ∉ n.toList) :
    (ofKept first kept).trail = (first :: kept).filter fun piece => !isIdle piece := by
  rw [trail, pieces_ofKept hf h]
  split
  · rename_i he
    rw [he.1, he.2]
    decide
  · rfl

theorem head?_eq_separator_iff (p : Path) :
    p.text.toList.head? = some '/' ↔ ∃ piece rest, p.pieces = "" :: piece :: rest := by
  obtain ⟨text⟩ := p
  rw [pieces]
  show text.toList.head? = some '/' ↔ _
  cases ht : text.toList with
  | nil => simp [Text.splitOn]
  | cons c t =>
    obtain ⟨piece, rest, he⟩ : ∃ piece rest, Text.splitOn '/' t = piece :: rest :=
      List.exists_cons_of_ne_nil (by simp [Text.splitOn_eq])
    by_cases hc : c = '/'
    · simp [Text.splitOn, hc, he]
    · simp [Text.splitOn, hc, he, ← String.toList_inj]

theorem startOf_of_pieces {first piece : String} {rest : List String}
    (h : p.pieces = first :: piece :: rest) :
    Disk.startOf here p.text = if first = "" then [] else here := by
  have hhead := head?_eq_separator_iff p
  rw [Disk.startOf]
  by_cases hf : first = ""
  · rw [if_pos hf, if_pos (hhead.mpr ⟨piece, rest, by rw [h, hf]⟩)]
  · rw [if_neg hf, if_neg]
    intro habs
    obtain ⟨piece', rest', he⟩ := hhead.mp habs
    exact hf (List.cons.inj (h.symm.trans he)).1

theorem startOf_of_pieces_singleton {first : String} (h : p.pieces = [first]) :
    Disk.startOf here p.text = here := by
  rw [Disk.startOf, if_neg]
  intro habs
  obtain ⟨piece, rest, he⟩ := (head?_eq_separator_iff p).mp habs
  simp [h] at he

theorem startOf_ofKept {first : String} {kept : List String} (hf : '/' ∉ first.toList)
    (h : ∀ n ∈ kept, '/' ∉ n.toList) :
    Disk.startOf here (ofKept first kept).text = if first = "" then [] else here := by
  have hp := pieces_ofKept hf h
  split at hp
  · rename_i he
    rw [startOf_of_pieces hp, if_pos he.1, if_pos rfl]
  · rename_i he
    cases kept with
    | nil =>
      have hne : first ≠ "" := fun hn => he ⟨hn, rfl⟩
      rw [startOf_of_pieces_singleton hp, if_neg hne]
    | cons piece rest => exact startOf_of_pieces hp

theorem parent?_of_pieces {first : String} {rest : List String} (h : p.pieces = first :: rest) :
    p.parent? = if dropIdleEnd rest ≠ [] then
        some (ofKept first (dropIdleEnd (dropIdleEnd rest).dropLast))
      else if first = "" then none else some ⟨""⟩ := by
  simp [parent?, h]

theorem parent?_eq_some (here : Location) (h : p.parent? = some q) :
    Disk.startOf here q.text = Disk.startOf here p.text ∧ q.trail <+: p.trail := by
  obtain ⟨first, rest, hp⟩ := List.exists_cons_of_ne_nil (pieces_ne_nil p)
  have hsep : ∀ n ∈ first :: rest, '/' ∉ n.toList := fun n hn =>
    no_separator_of_mem_pieces (hp ▸ hn)
  obtain ⟨hf, hr⟩ := List.forall_mem_cons.mp hsep
  rw [parent?_of_pieces hp] at h
  split at h
  · rename_i hne
    obtain rfl := Option.some.inj h
    have hkept : dropIdleEnd (dropIdleEnd rest).dropLast ⊆ rest := fun n hn =>
      dropIdleEnd_subset rest (List.dropLast_subset _ (dropIdleEnd_subset _ hn))
    have hk : ∀ n ∈ dropIdleEnd (dropIdleEnd rest).dropLast, '/' ∉ n.toList :=
      fun n hn => hr n (hkept hn)
    constructor
    · rw [startOf_ofKept hf hk]
      cases hrest : rest with
      | nil => simp [hrest, dropIdleEnd] at hne
      | cons piece more => rw [startOf_of_pieces (hrest ▸ hp)]
    · rw [trail_ofKept hf hk, trail, hp, List.filter_cons, List.filter_cons, filter_dropIdleEnd,
        ← filter_dropIdleEnd rest]
      have hpre := (List.dropLast_prefix (dropIdleEnd rest)).filter fun piece => !isIdle piece
      split
      · exact (List.prefix_cons_inj first).mpr hpre
      · exact hpre
  · split at h
    · cases h
    · rename_i hfirst
      obtain rfl := Option.some.inj h
      constructor
      · have hstart : Disk.startOf here p.text = here := by
          cases rest with
          | nil => exact startOf_of_pieces_singleton hp
          | cons piece more => rw [startOf_of_pieces hp, if_neg hfirst]
        rw [hstart]
        rfl
      · have hnil : (⟨""⟩ : Path).trail = [] := by decide
        rw [hnil]
        exact List.nil_prefix

theorem trail_of_parent?_eq_none (h : p.parent? = none) : p.trail = [] := by
  obtain ⟨first, rest, hp⟩ := List.exists_cons_of_ne_nil (pieces_ne_nil p)
  rw [parent?_of_pieces hp] at h
  split at h
  · cases h
  · rename_i hempty
    split at h
    · rename_i hfirst
      rw [trail, hp, List.filter_cons, ← filter_dropIdleEnd rest, Decidable.not_not.mp hempty, hfirst]
      decide
    · cases h

theorem parent?_div (hn : IsName n) (p : Path) : (p / n).parent? ≠ none := by
  intro h
  have ht := trail_of_parent?_eq_none h
  simp [trail_div hn] at ht

theorem mem_ancestorsUpTo (here : Location) {bound : Nat} (h : q ∈ ancestorsUpTo bound p) :
    Disk.startOf here q.text = Disk.startOf here p.text ∧ q.trail <+: p.trail := by
  induction bound generalizing p with
  | zero => cases h
  | succ bound ih =>
    rw [ancestorsUpTo] at h
    rcases List.mem_cons.mp h with rfl | h
    · exact ⟨rfl, List.prefix_refl _⟩
    · split at h
      · rename_i parent hp
        obtain ⟨hs, ht⟩ := parent?_eq_some here hp
        obtain ⟨hs', ht'⟩ := ih h
        exact ⟨hs'.trans hs, ht'.trans ht⟩
      · cases h

/-- On the way to a parent of a path nothing is entered or left that the path does not enter or
leave. -/
theorem entered_subset_of_mem_ancestors (h : q ∈ p.ancestors) : q.entered here ⊆ p.entered here := by
  obtain ⟨hs, more, ht⟩ := mem_ancestorsUpTo here h
  rw [entered, entered, hs, ← ht, Location.entered_append]
  exact List.subset_append_left _ _

theorem trail_append_separators (a : String) (k : Nat) :
    (⟨a ++ String.ofList (List.replicate k '/')⟩ : Path).trail = (⟨a⟩ : Path).trail := by
  induction k with
  | zero => simp
  | succ k ih =>
    have he : a ++ String.ofList (List.replicate (k + 1) '/') =
        a ++ String.ofList (List.replicate k '/') ++ "/" ++ "" := by
      simp [← String.toList_inj, List.replicate_succ']
    have hnil : (⟨""⟩ : Path).trail = [] := by decide
    rw [he, trail_append, hnil, List.append_nil, ih]

theorem dropEndSlashes_eq (here : Location) (text : String) :
    (⟨Disk.dropEndSlashes text⟩ : Path).trail = (⟨text⟩ : Path).trail ∧
      Disk.startOf here (Disk.dropEndSlashes text) = Disk.startOf here text := by
  have hback : text.toList.reverse.takeWhile (· == '/') =
      List.replicate (text.toList.reverse.takeWhile (· == '/')).length '/' :=
    List.eq_replicate_iff.mpr ⟨rfl, fun c hc => by
      simpa using List.all_eq_true.mp List.all_takeWhile c hc⟩
  have hsplit := List.takeWhile_append_dropWhile (p := (· == '/')) (l := text.toList.reverse)
  rw [hback, ← List.reverse_inj, List.reverse_append, List.reverse_replicate,
    List.reverse_reverse] at hsplit
  rw [Disk.dropEndSlashes]
  generalize (text.toList.reverse.dropWhile (· == '/')).reverse = kept at hsplit ⊢
  split
  · exact ⟨rfl, rfl⟩
  · rename_i hne
    have ht : text = String.ofList kept ++
        String.ofList (List.replicate (text.toList.reverse.takeWhile (· == '/')).length '/') := by
      rw [← String.toList_inj]
      simpa using hsplit.symm
    constructor
    · conv => rhs; rw [ht]
      exact (trail_append_separators _ _).symm
    · obtain ⟨c, cs, rfl⟩ := List.exists_cons_of_ne_nil (by simpa using hne : kept ≠ [])
      rw [Disk.startOf, Disk.startOf, ← hsplit]
      simp

theorem filter_steps (text : String) :
    (Disk.steps text).filter (· ≠ ".") = (⟨text⟩ : Path).trail := by
  have hnames : ∀ l : List String, (l.filter (fun piece => piece != "")).filter (· ≠ ".") =
      l.filter fun piece => !isIdle piece := by
    intro l
    rw [List.filter_filter]
    apply List.filter_congr
    intro n _
    by_cases h : n = "" <;> by_cases h' : n = "." <;> simp [isIdle, h, h', bne]
  rw [Disk.steps, trail, pieces]
  dsimp only
  split
  · rw [List.filter_append, hnames]
    simp
  · exact hnames _

theorem exists_pieces_div (hn : IsName n) (p : Path) : ∃ front, (p / n).pieces = front ++ [n] := by
  rw [div_eq hn, ← pieces_of_not_mem hn.no_separator]
  obtain ⟨text⟩ := p
  split
  · rename_i h
    rcases h with h | h
    · have he : text = "" := h
      exact ⟨[], by rw [he, String.empty_append, List.nil_append]⟩
    · obtain ⟨b, rfl⟩ := exists_eq_append_separator h
      exact ⟨_, pieces_append b n⟩
  · exact ⟨_, pieces_append text n⟩

theorem steps_div (hn : IsName n) (p : Path) :
    ∃ front, Disk.steps (p / n).text = front ++ [n] ∧ front.filter (· ≠ ".") = p.trail := by
  obtain ⟨front, hp⟩ := exists_pieces_div hn p
  have hsteps : Disk.steps (p / n).text = front.filter (fun piece => piece != "") ++ [n] := by
    rw [pieces] at hp
    simp [Disk.steps, hp, hn.ne_empty]
  have htrail := filter_steps (p / n).text
  rw [hsteps, List.filter_append, trail_div hn] at htrail
  refine ⟨_, hsteps, (List.append_inj' htrail ?_).1⟩
  simp [hn.ne_here]

theorem dropEndSlashes_div (hn : IsName n) (p : Path) :
    Disk.dropEndSlashes (p / n).text = (p / n).text := by
  have hlast : (p / n).text.toList.getLast? ≠ some '/' := by
    intro h
    obtain ⟨b, hb⟩ := exists_eq_append_separator h
    obtain ⟨front, hp⟩ := exists_pieces_div hn p
    have hpieces : (p / n).pieces = (⟨b⟩ : Path).pieces ++ [""] := by
      have he : p / n = ⟨b ++ "/" ++ ""⟩ := by
        rw [String.append_empty, ← hb]
      rw [he, pieces_append]
      rfl
    rw [hp] at hpieces
    exact hn.ne_empty (List.singleton_inj.mp (List.append_inj' hpieces rfl).2)
  rw [Disk.dropEndSlashes]
  have hkept : (p / n).text.toList.reverse.dropWhile (· == '/') = (p / n).text.toList.reverse := by
    rw [← List.head?_reverse] at hlast
    cases hr : (p / n).text.toList.reverse with
    | nil => rfl
    | cons c cs =>
      rw [hr] at hlast
      have hc : c ≠ '/' := fun hc => hlast (by rw [hc]; rfl)
      simp [hc]
  rw [hkept, List.reverse_reverse]
  simp

end Path

end GrammarHeaders
