import GrammarHeaders.Proofs.LineShapes
import GrammarHeaders.Proofs.LineSplitting

namespace GrammarHeaders

namespace ExportMacro

def fields (m : ExportMacro) : List String :=
  [m.name, m.enableDefine, m.disableDefine, m.windowsAttribute, m.unixAttribute]

/-- No field has a newline character. -/
def OnOneLine (m : ExportMacro) : Prop := ∀ field ∈ m.fields, Text.NewlineFree field.toList

instance (m : ExportMacro) : Decidable m.OnOneLine := inferInstanceAs (Decidable (∀ _ ∈ _, _))

theorem OnOneLine.name {m : ExportMacro} (h : m.OnOneLine) : Text.NewlineFree m.name.toList :=
  h m.name (by simp [fields])

def defineLine (m : ExportMacro) (gap value : Text) : Text :=
  '#' :: (gap ++ (Directive.defineWord ++ ' ' :: (m.name.toList ++ value)))

theorem definitionLines_toList (m : ExportMacro) : m.definitionLines.map String.toList =
    ["#if defined(".toList ++ m.enableDefine.toList ++ ") && !defined(".toList ++
        m.disableDefine.toList ++ [')'],
      "#  if defined(_WIN32)".toList,
      m.defineLine "    ".toList (' ' :: m.windowsAttribute.toList),
      "#  else".toList,
      m.defineLine "    ".toList (' ' :: m.unixAttribute.toList),
      "#  endif".toList,
      "#else".toList,
      m.defineLine "  ".toList [],
      "#endif".toList] := by
  have hlong : "#    define ".toList = '#' :: ("    ".toList ++ (Directive.defineWord ++ [' '])) := by
    decide
  have hshort : "#  define ".toList = '#' :: ("  ".toList ++ (Directive.defineWord ++ [' '])) := by
    decide
  have hclose : ")".toList = [')'] := by decide
  have hspace : " ".toList = [' '] := by decide
  simp only [definitionLines, defineLine, toString, List.map_cons, List.map_nil, String.toList_append,
    hlong, hshort, hclose, hspace, List.append_assoc, List.cons_append, List.nil_append,
    List.append_nil]

/-- The lines of the block, each with the same ending. -/
def blockLines (m : ExportMacro) (e : LineEnding) : List Line :=
  m.definitionLines.map fun line => ⟨line.toList, some e⟩

theorem ofLines_blockLines (m : ExportMacro) (e : LineEnding) :
    Text.ofLines (m.blockLines e) = m.definitionBlock e.text := by
  simp [Text.ofLines, blockLines, definitionBlock, List.flatMap_map, Line.text, Line.ending]

theorem blockLines_eq (m : ExportMacro) (e : LineEnding) :
    m.blockLines e = (m.definitionLines.map String.toList).map fun t => ⟨t, some e⟩ := by
  simp [blockLines]

theorem newlineFree_defineLine {m : ExportMacro} (h : m.OnOneLine) {gap value : Text}
    (hg : Text.NewlineFree gap) (hv : Text.NewlineFree value) :
    Text.NewlineFree (m.defineLine gap value) := by
  have hs : Text.NewlineFree ['#'] := by decide
  have hd : Text.NewlineFree (Directive.defineWord ++ [' ']) := by decide
  simpa [defineLine] using hs.append (hg.append (hd.append (h.name.append hv)))

theorem newlineFree_definitionLines {m : ExportMacro} (h : m.OnOneLine) :
    ∀ t ∈ m.definitionLines.map String.toList, Text.NewlineFree t := by
  have he := h m.enableDefine (by simp [fields])
  have hd := h m.disableDefine (by simp [fields])
  have hw := h m.windowsAttribute (by simp [fields])
  have hu := h m.unixAttribute (by simp [fields])
  have hspace : Text.NewlineFree [' '] := by decide
  have hopen : Text.NewlineFree "#if defined(".toList := by decide
  have hand : Text.NewlineFree ") && !defined(".toList := by decide
  have hclose : Text.NewlineFree [')'] := by decide
  rw [definitionLines_toList]
  simp only [List.forall_mem_cons]
  exact ⟨(((hopen.append he).append hand).append hd).append hclose, by decide,
    newlineFree_defineLine h (by decide) (hspace.append hw), by decide,
    newlineFree_defineLine h (by decide) (hspace.append hu), by decide, by decide,
    newlineFree_defineLine h (by decide) (by decide), by decide, by simp⟩

theorem closed_blockLines {m : ExportMacro} (h : m.OnOneLine) (e : LineEnding) :
    ∀ l ∈ m.blockLines e, l.Closed := by
  intro l hl
  rw [blockLines_eq] at hl
  obtain ⟨t, ht, rfl⟩ := List.mem_map.mp hl
  obtain ⟨hr, hn⟩ := newlineFree_definitionLines h t ht
  exact ⟨hn, rfl, fun _ hlast => hr (List.mem_of_getLast? hlast)⟩

theorem blockLines_numberSign (m : ExportMacro) (e : LineEnding) :
    ∀ l ∈ m.blockLines e, l.content.head? = some '#' := by
  rw [blockLines_eq, definitionLines_toList]
  simp [defineLine]

theorem definesMacro_definitionLines {m : ExportMacro}
    (hid : Text.isIdentifier m.name.toList = true) :
    (m.definitionLines.map String.toList).map (Directive.definesMacro m.name.toList) =
      [false, false, true, false, true, false, false, true, false] := by
  obtain ⟨c, rest, hn, hc⟩ := Text.isIdentifier_cons hid
  have hd : ∀ gap value, gap.all Text.isWhite = true → Directive.endsName value = true →
      Directive.definesMacro m.name.toList (m.defineLine gap value) = true :=
    fun gap value hg hv => Directive.definesMacro_define hg hn (Text.isWhite_of_isWord hc) hv
  rw [definitionLines_toList]
  simp only [List.map_cons, List.map_nil]
  rw [hd _ _ (by decide) rfl, hd _ _ (by decide) rfl, hd _ _ (by decide) rfl]
  rfl

theorem definesMacro_blockLines_iff {m : ExportMacro}
    (hid : Text.isIdentifier m.name.toList = true) {e : LineEnding} {i : Nat} {l : Line}
    (h : (m.blockLines e)[i]? = some l) :
    Directive.definesMacro m.name.toList l.content = true ↔ i = 2 ∨ i = 4 ∨ i = 7 := by
  have hs : ∀ i < 9, [false, false, true, false, true, false, false, true, false][i]? = some true ↔
      i = 2 ∨ i = 4 ∨ i = 7 := by
    decide
  have hi : i < 9 := (List.getElem?_eq_some_iff.mp h).1
  rw [blockLines_eq, List.getElem?_map] at h
  obtain ⟨t, ht, rfl⟩ := Option.map_eq_some_iff.mp h
  rw [← hs i hi, ← definesMacro_definitionLines hid, List.getElem?_map, ht]
  simp

theorem place_of_definesMacro {m : ExportMacro} (hid : Text.isIdentifier m.name.toList = true)
    {before after : List Line} {e : LineEnding} {l : Line} {j : Nat}
    (hb : ∀ k ∈ before, ¬ Directive.definesMacro m.name.toList k.content)
    (ha : ∀ k ∈ after, ¬ Directive.definesMacro m.name.toList k.content)
    (hj : (before ++ (m.blockLines e ++ after))[j]? = some l)
    (hl : Directive.definesMacro m.name.toList l.content = true) :
    j = before.length + 2 ∨ j = before.length + 4 ∨ j = before.length + 7 := by
  rcases Nat.lt_or_ge j before.length with hlt | hge
  · rw [List.getElem?_append_left hlt] at hj
    exact absurd hl (hb l (List.mem_of_getElem? hj))
  · obtain ⟨i, rfl⟩ := Nat.exists_eq_add_of_le hge
    rw [List.getElem?_append_right hge, Nat.add_sub_cancel_left] at hj
    rcases Nat.lt_or_ge i (m.blockLines e).length with hlt | hge
    · rw [List.getElem?_append_left hlt] at hj
      have := (definesMacro_blockLines_iff hid hj).mp hl
      omega
    · rw [List.getElem?_append_right hge] at hj
      exact absurd hl (ha l (List.mem_of_getElem? hj))

theorem lines_append_definitionBlock {m : ExportMacro} (hm : m.OnOneLine) (e : LineEnding)
    (front back : Text) : ∃ as g first rest, m.blockLines e = first :: rest ∧
      front = Text.ofLines as ++ g ∧
      Text.lines (front ++ (m.definitionBlock e.text ++ back)) =
        as ++ { first with content := g ++ first.content } :: (rest ++ Text.lines back) := by
  obtain ⟨f, g, rfl, hf, hg⟩ := Text.exists_endsLine_append front
  obtain ⟨first, rest, hr⟩ : ∃ first rest, m.blockLines e = first :: rest := ⟨_, _, rfl⟩
  have hc := closed_blockLines hm e
  have hn := m.blockLines_numberSign e
  rw [hr] at hc hn
  have hne : first.content ≠ [] := by
    intro h
    simpa [h] using hn first (by simp)
  have hfirst : Line.Closed { first with content := g ++ first.content } :=
    (hc first (by simp)).prepend hg hne
  refine ⟨Text.lines f, g, first, rest, hr, by rw [Text.ofLines_lines], ?_⟩
  have ht : f ++ g ++ (m.definitionBlock e.text ++ back) = f ++
      (Line.text { first with content := g ++ first.content } ++ (Text.ofLines rest ++ back)) := by
    rw [← ofLines_blockLines, hr]
    simp [Line.text, Line.ending]
  rw [ht, Text.lines_append hf, Text.lines_text_append hfirst,
    Text.lines_ofLines_append fun l hl => hc l (by simp [hl])]

/-- All but the first line of a block can stand in one place only. The lines that define the macro
fix it, since the distances between each two of them differ. -/
theorem length_of_blockLines {m : ExportMacro} (hid : Text.isIdentifier m.name.toList = true)
    {before after as bs rest : List Line} {e e' : LineEnding} {first x : Line}
    (hb : ∀ k ∈ before, ¬ Directive.definesMacro m.name.toList k.content)
    (ha : ∀ k ∈ after, ¬ Directive.definesMacro m.name.toList k.content)
    (hr : m.blockLines e' = first :: rest)
    (hl : before ++ (m.blockLines e ++ after) = as ++ x :: (rest ++ bs)) :
    before.length = as.length := by
  have hplace : ∀ k, k + 1 = 2 ∨ k + 1 = 4 ∨ k + 1 = 7 → as.length + (k + 1) = before.length + 2 ∨
      as.length + (k + 1) = before.length + 4 ∨ as.length + (k + 1) = before.length + 7 := by
    intro k hk
    have hlt : k + 1 < (m.blockLines e').length := by
      change k + 1 < 9
      omega
    have hi : (m.blockLines e')[k + 1]? = some (m.blockLines e')[k + 1] :=
      List.getElem?_eq_getElem hlt
    have hd := (definesMacro_blockLines_iff hid hi).mpr hk
    have hrest : k < rest.length := by simpa [hr] using hlt
    have hj : (before ++ (m.blockLines e ++ after))[as.length + (k + 1)]? =
        some (m.blockLines e')[k + 1] := by
      rw [hl, List.getElem?_append_right (Nat.le_add_right _ _), Nat.add_sub_cancel_left,
        List.getElem?_cons_succ, List.getElem?_append_left hrest, ← hi, hr, List.getElem?_cons_succ]
    exact place_of_definesMacro hid hb ha hj hd
  have h₂ := hplace 1 (by simp)
  have h₄ := hplace 3 (by simp)
  have h₇ := hplace 6 (by simp)
  omega

/-- Between lines that do not define the macro, the text of the block occurs where the block is and
nowhere else. -/
theorem front_of_definitionBlock {m : ExportMacro} (hid : Text.isIdentifier m.name.toList = true)
    (hm : m.OnOneLine) {before after : List Line} {e e' : LineEnding} {front back : Text}
    (hb : ∀ k ∈ before, ¬ Directive.definesMacro m.name.toList k.content)
    (ha : ∀ k ∈ after, ¬ Directive.definesMacro m.name.toList k.content)
    (hc : Text.Canonical (before ++ (m.blockLines e ++ after)))
    (h : Text.ofLines (before ++ (m.blockLines e ++ after)) =
      front ++ (m.definitionBlock e'.text ++ back)) : front = Text.ofLines before := by
  obtain ⟨as, g, first, rest, hr, rfl, hl⟩ := lines_append_definitionBlock hm e' front back
  rw [← h, Text.lines_ofLines hc] at hl
  obtain ⟨rfl, hk⟩ := List.append_inj hl (length_of_blockLines hid hb ha hr hl)
  -- both blocks have the same first line, so nothing stands in front of it
  have hfirst : (m.blockLines e).head?.map Line.content = some first.content := by
    have hsame : (m.blockLines e).head?.map Line.content =
      (m.blockLines e').head?.map Line.content := rfl
    simpa [hr] using hsame
  have hhead : (m.blockLines e).head?.map Line.content = some (g ++ first.content) := by
    have hne : m.blockLines e ≠ [] := by simp [blockLines, definitionLines]
    rw [← List.head?_append_of_ne_nil _ hne, hk]
    rfl
  have hg : g = [] := by simpa [hfirst] using hhead
  simp [hg]

end ExportMacro

end GrammarHeaders
