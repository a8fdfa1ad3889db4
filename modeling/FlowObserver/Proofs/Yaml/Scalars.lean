import FlowObserver.Yaml.Content
import FlowObserver.Yaml.Printer
import Mathlib

/-!
# Reading scalars of one line

A text without line breaks is written as it is, if it holds nothing that means more than itself, or
else between single quotes. Either form is read word by word, and the gaps between the words stand
for themselves.
-/

namespace FlowObserver
namespace Yaml

/-- So many characters further on the same line. -/
def Mark.ahead (m : Mark) (n : Nat) : Mark :=
  { m with index := m.index + n, column := m.column + n }

namespace Mark

variable (m : Mark)

theorem ahead_zero : m.ahead 0 = m := rfl

theorem ahead_ahead (i j : Nat) : (m.ahead i).ahead j = m.ahead (i + j) := by
  simp [ahead, Nat.add_assoc]

end Mark

namespace Cursor

theorem skip_cons (x : Char) (rest : List Char) (m : Mark) :
    (⟨x :: rest, m⟩ : Cursor).skip = ⟨rest, m.ahead 1⟩ := rfl

theorem skipMany_append (xs rest : List Char) (m : Mark) :
    (⟨xs ++ rest, m⟩ : Cursor).skipMany xs.length = ⟨rest, m.ahead xs.length⟩ := by
  induction xs using List.reverseRecOn generalizing rest with
  | nil => rfl
  | append_singleton xs x ih =>
    rw [List.append_assoc, List.length_append]
    change skip ((⟨xs ++ ([x] ++ rest), m⟩ : Cursor).skipMany xs.length) = _
    rw [ih]
    simp [skip_cons, Mark.ahead_ahead]

theorem atAnyDocumentMark_of_column {c : Cursor} (h : c.mark.column ≠ 0) :
    c.atAnyDocumentMark = false := by
  simp [atAnyDocumentMark, atDocumentMark, h]

end Cursor

def isMark (c : Char) : Bool := !isBlank c && !isBreak c

theorem isMark_iff (c : Char) : isMark c = true ↔ isBlank c = false ∧ isBreak c = false := by
  simp [isMark]

theorem isGap_some (c : Char) : isGap (some c) = !isMark c := by
  cases hb : isBlank c <;> cases hk : isBreak c <;> simp [isGap, isMark, hb, hk]

theorem takeGap_of_mark (start : Mark) (indent fuel : Nat) (g : Gap) {rest : List Char} {m : Mark}
    (h : rest.head?.all isMark = true) :
    takeGap start indent fuel g ⟨rest, m⟩ = .ok (g, ⟨rest, m⟩) := by
  cases fuel with
  | zero => rfl
  | succ fuel =>
    cases rest with
    | nil => rfl
    | cons x rest =>
      obtain ⟨hblank, hbreak⟩ := (isMark_iff x).mp h
      simp [takeGap, Cursor.peek, hblank, hbreak]

/-- Blanks up to the next word of a line. -/
theorem takeGap_blanks (start : Mark) (indent : Nat) {blanks : List Char}
    (hblanks : ∀ x ∈ blanks, isBlank x = true) {rest : List Char}
    (hrest : rest.head?.all isMark = true) (fuel : Nat) (hfuel : blanks.length ≤ fuel) {g : Gap}
    (hg : g.broken = false) (m : Mark) :
    takeGap start indent fuel g ⟨blanks ++ rest, m⟩ =
      .ok ({ g with blanks := g.blanks ++ blanks }, ⟨rest, m.ahead blanks.length⟩) := by
  induction blanks generalizing fuel g m with
  | nil =>
    rw [List.nil_append, takeGap_of_mark start indent fuel g hrest]
    simp [Mark.ahead_zero]
  | cons x blanks ih =>
    obtain ⟨hx, hblanks⟩ := List.forall_mem_cons.mp hblanks
    obtain ⟨fuel, rfl⟩ : ∃ k, fuel = k + 1 := ⟨fuel - 1, by simp at hfuel; omega⟩
    have hstep : takeGap start indent (fuel + 1) g ⟨x :: (blanks ++ rest), m⟩ =
        takeGap start indent fuel { g with blanks := g.blanks ++ [x] }
          ⟨blanks ++ rest, m.ahead 1⟩ := by
      simp [takeGap, Cursor.peek, hx, hg, Cursor.skip_cons]
    have hrest := ih hblanks fuel (by simpa using hfuel)
      (g := { g with blanks := g.blanks ++ [x] }) hg (m.ahead 1)
    rw [List.cons_append, hstep, hrest]
    simp [Mark.ahead_ahead, Nat.add_comm]

/-- A line break and the indentation of the line after it. -/
theorem takeGap_line (start : Mark) (indent column : Nat) {rest : List Char}
    (hrest : rest.head?.all isMark = true) (fuel : Nat) (hfuel : column + 1 ≤ fuel) (m : Mark) :
    takeGap start indent fuel {} ⟨'\n' :: (List.replicate column ' ' ++ rest), m⟩ =
      .ok ({ broken := true, first := ['\n'] }, ⟨rest, ⟨m.index + 1 + column, m.line + 1, column⟩⟩) := by
  have hspaces (n : Nat) (m : Mark) {fuel : Nat} (hfuel : n ≤ fuel) (g : Gap)
      (hg : g.broken = true) :
      takeGap start indent fuel g ⟨List.replicate n ' ' ++ rest, m⟩ =
        .ok (g, ⟨rest, m.ahead n⟩) := by
    induction n generalizing fuel m with
    | zero =>
      rw [List.replicate_zero, List.nil_append, takeGap_of_mark start indent fuel g hrest]
      rfl
    | succ n ih =>
      obtain ⟨fuel, rfl⟩ : ∃ k, fuel = k + 1 := ⟨fuel - 1, by omega⟩
      have hstep : takeGap start indent (fuel + 1) g ⟨' ' :: (List.replicate n ' ' ++ rest), m⟩ =
          takeGap start indent fuel g ⟨List.replicate n ' ' ++ rest, m.ahead 1⟩ := by
        simp [takeGap, Cursor.peek, isBlank, hg, Cursor.skip_cons]
      rw [List.replicate_succ, List.cons_append, hstep, ih _ (by omega), Mark.ahead_ahead,
        Nat.add_comm]
  obtain ⟨fuel, rfl⟩ : ∃ k, fuel = k + 1 := ⟨fuel - 1, by omega⟩
  have hstep : takeGap start indent (fuel + 1) {} ⟨'\n' :: (List.replicate column ' ' ++ rest), m⟩ =
      takeGap start indent fuel { broken := true, first := ['\n'] }
        ⟨List.replicate column ' ' ++ rest, ⟨m.index + 1, m.line + 1, 0⟩⟩ := by
    simp [takeGap, Cursor.peek, isBlank, isBreak, Cursor.takeBreak]
  rw [hstep, hspaces column _ (by omega) _ rfl]
  simp [Mark.ahead]

/-- Words with gaps between them. -/
inductive Words : List Char → Prop
  | word {word : List Char} (hword : ∀ c ∈ word, isMark c = true) : Words word
  | gap {word blanks rest : List Char} (hword : ∀ c ∈ word, isMark c = true) (hne : blanks ≠ [])
      (hblanks : ∀ c ∈ blanks, isBlank c = true) (hrest : rest.head?.all isMark = true)
      (more : Words rest) : Words (word ++ (blanks ++ rest))

theorem Words.of_unbroken {cs : List Char} (h : ∀ c ∈ cs, isBreak c = false) : Words cs := by
  induction hn : cs.length using Nat.strong_induction_on generalizing cs with
  | _ n ih =>
    have hsplit : cs = cs.takeWhile isMark ++ ((cs.dropWhile isMark).takeWhile isBlank ++
        (cs.dropWhile isMark).dropWhile isBlank) := by
      rw [List.takeWhile_append_dropWhile, List.takeWhile_append_dropWhile]
    have hmarks : ∀ c ∈ cs.takeWhile isMark, isMark c = true := fun c hc => List.mem_takeWhile_imp hc
    cases hend : cs.dropWhile isMark with
    | nil =>
      rw [hsplit, hend]
      simpa using Words.word hmarks
    | cons x rest =>
      have hblank : isBlank x = true := by
        have hmark := List.head?_dropWhile_not isMark cs
        rw [hend] at hmark
        have hbreak := h x ((List.dropWhile_sublist isMark).subset (hend ▸ List.mem_cons_self))
        simpa [isMark, hbreak] using hmark
      have hblanks : (cs.dropWhile isMark).takeWhile isBlank ≠ [] := by
        rw [hend, List.takeWhile_cons_of_pos hblank]
        exact List.cons_ne_nil _ _
      have hunbroken : ∀ c ∈ (cs.dropWhile isMark).dropWhile isBlank, isBreak c = false :=
        fun c hc => h c ((List.dropWhile_sublist _).subset ((List.dropWhile_sublist _).subset hc))
      rw [hsplit]
      refine .gap hmarks hblanks (fun c hc => List.mem_takeWhile_imp hc) ?_ (ih _ ?_ hunbroken rfl)
      · cases hr : (cs.dropWhile isMark).dropWhile isBlank with
        | nil => rfl
        | cons y rest =>
          have hy := List.head?_dropWhile_not isBlank (cs.dropWhile isMark)
          rw [hr] at hy hunbroken
          exact (isMark_iff y).mpr ⟨by simpa using hy, hunbroken y List.mem_cons_self⟩
      · have hlength := congrArg List.length hsplit
        have hpos := List.length_pos_iff.mpr hblanks
        simp only [List.length_append] at hlength
        omega

/-- A text of one line in which nothing stands for syntax, after a character or at the start. -/
structure Plain (previous : Option Char) (cs : List Char) : Prop where
  starts : cs.head?.any isMark = true
  ends : cs.getLast?.any isMark = true
  unbroken : ∀ c ∈ cs, isBreak c = false
  quiet : hasIndicator previous cs = false

theorem hasIndicator_cons {previous : Option Char} {c : Char} {rest : List Char}
    (h : hasIndicator previous (c :: rest) = false) :
    (c = ':' → isGap rest.head? = false) ∧ (isGap previous = true → c ≠ '#') ∧
      hasIndicator (some c) rest = false := by
  rw [hasIndicator, Bool.or_eq_false_iff] at h
  refine ⟨?_, ?_, h.2⟩ <;> cases previous <;> grind [isIndicator, isLeadIndicator]

theorem hasIndicator_append {previous : Option Char} {cs : List Char} (hcs : cs ≠ [])
    {rest : List Char} (h : hasIndicator previous (cs ++ rest) = false) :
    hasIndicator cs.getLast? rest = false := by
  induction cs generalizing previous with
  | nil => contradiction
  | cons c cs ih =>
    have hrest := (hasIndicator_cons h).2.2
    cases cs with
    | nil => simpa using hrest
    | cons d cs => simpa using ih (List.cons_ne_nil d cs) hrest

namespace Plain

variable {previous : Option Char} {cs : List Char}

theorem ne_nil (h : Plain previous cs) : cs ≠ [] := by
  rintro rfl
  exact absurd h.starts (by decide)

theorem head?_ne (h : Plain previous cs) (hprevious : isGap previous = true) :
    cs.head? ≠ some '#' := by
  cases cs with
  | nil => simp
  | cons c rest => simpa using (hasIndicator_cons h.quiet).2.1 hprevious

/-- What stands behind a gap is plain as well. -/
theorem behind_gap {before blanks : List Char} (h : Plain previous (before ++ (blanks ++ cs)))
    (hne : blanks ≠ []) (hblanks : ∀ c ∈ blanks, isBlank c = true)
    (hcs : cs.head?.all isMark = true) : Plain blanks.getLast? cs ∧ isGap blanks.getLast? = true := by
  have hlast : isBlank (blanks.getLast hne) = true := hblanks _ (List.getLast_mem hne)
  have hcs_ne : cs ≠ [] := by
    rintro rfl
    have hend := h.ends
    rw [List.append_nil, List.getLast?_append_of_ne_nil _ hne, List.getLast?_eq_some_getLast hne]
      at hend
    simp [isMark, hlast] at hend
  refine ⟨⟨?_, ?_, ?_, ?_⟩, ?_⟩
  · obtain ⟨c, rest, rfl⟩ := List.exists_cons_of_ne_nil hcs_ne
    exact hcs
  · have hend := h.ends
    rwa [← List.append_assoc, List.getLast?_append_of_ne_nil _ hcs_ne] at hend
  · exact fun c hc => h.unbroken c (by simp [hc])
  · have hquiet := h.quiet
    rw [← List.append_assoc] at hquiet
    have hbefore := hasIndicator_append (List.append_ne_nil_of_right_ne_nil before hne) hquiet
    rwa [List.getLast?_append_of_ne_nil _ hne] at hbefore
  · rw [List.getLast?_eq_some_getLast hne, isGap_some]
    simp [isMark, hlast]

end Plain

/-- A word ends where something follows that is none of its marks. -/
theorem plainWord_append {word : List Char} (hword : ∀ c ∈ word, isMark c = true)
    {previous : Option Char} {more : List Char} (hquiet : hasIndicator previous (word ++ more) = false)
    {tail : List Char} (hstop : plainWord false (more ++ tail) = (0, false)) :
    plainWord false (word ++ (more ++ tail)) = (word.length, false) := by
  induction word generalizing previous with
  | nil => exact hstop
  | cons c word ih =>
    obtain ⟨hc, hword⟩ := List.forall_mem_cons.mp hword
    obtain ⟨hblank, hbreak⟩ := (isMark_iff c).mp hc
    rw [List.cons_append] at hquiet
    obtain ⟨hcolon, -, hrest⟩ := hasIndicator_cons hquiet
    have hnext : c = ':' → isGap (word ++ (more ++ tail)).head? = false := by
      intro h
      have hgap := hcolon h
      rw [← List.append_assoc, List.head?_append]
      cases hx : (word ++ more).head? with
      | none => rw [hx] at hgap; exact absurd hgap (by decide)
      | some x => rw [hx] at hgap; exact hgap
    have hends : (decide (c = ':') && isGap (word ++ (more ++ tail)).head?) = false := by
      by_cases h : c = ':'
      · rw [hnext h, Bool.and_false]
      · rw [decide_eq_false h, Bool.false_and]
    rw [List.cons_append, plainWord, ih hword hrest, hends]
    simp [hblank, hbreak]

/-- How reading goes on behind a word. -/
def behindWord (indent : Nat) (start : Mark) (fuel : Nat) (text : List Char) (c : Cursor) :
    Scanned Content := do
  let done : Content := ⟨text, c.mark, c, false⟩
  if !c.peek.any fun x => isBlank x || isBreak x then return done
  let (gap, next) ← takeGap start indent (c.rest.length + 1) {} c
  let done := { done with next, broken := gap.broken }
  if next.mark.column < indent then return done
  scanPlainFrom false indent start fuel done gap

theorem scanPlainFrom_word {word after : List Char} (hne : word ≠ [])
    (hlength : plainWord false (word ++ after) = (word.length, false))
    (hcomment : word.head? ≠ some '#') {m : Mark}
    (hdocument : (⟨word ++ after, m⟩ : Cursor).atAnyDocumentMark = false) (indent : Nat)
    (start : Mark) (fuel : Nat) (text : List Char) (stop : Mark) (broken : Bool) (gap : Gap) :
    scanPlainFrom false indent start (fuel + 1) ⟨text, stop, ⟨word ++ after, m⟩, broken⟩ gap =
      behindWord indent start fuel (text ++ gap.joined ++ word) ⟨after, m.ahead word.length⟩ := by
  have hhead : (⟨word ++ after, m⟩ : Cursor).is '#' = false := by
    simpa [Cursor.is, Cursor.peek, List.head?_append_of_ne_nil, hne] using hcomment
  have hzero : word.length ≠ 0 := by simpa using hne
  rw [scanPlainFrom, behindWord]
  simp only [hdocument, hhead, hlength, Cursor.skipMany_append, Bool.or_self, Bool.false_eq_true,
    if_false, if_neg hzero, List.take_left, Bool.not_false, Bool.true_and, decide_eq_true_eq]

theorem behindWord_blanks {blanks : List Char} (hne : blanks ≠ [])
    (hblanks : ∀ c ∈ blanks, isBlank c = true) {rest : List Char}
    (hrest : rest.head?.all isMark = true) {indent : Nat} {m : Mark}
    (hcolumn : indent ≤ m.column + blanks.length) (start : Mark) (fuel : Nat) (text : List Char) :
    behindWord indent start fuel text ⟨blanks ++ rest, m⟩ =
      scanPlainFrom false indent start fuel ⟨text, m, ⟨rest, m.ahead blanks.length⟩, false⟩
        { blanks } := by
  have hgap := takeGap_blanks start indent hblanks hrest
    ((blanks ++ rest).length + 1) (by simp; omega) (g := {}) rfl m
  have hindent : ¬(m.ahead blanks.length).column < indent := by simpa [Mark.ahead] using hcolumn
  have hhead : (blanks ++ rest).head?.any (fun x => isBlank x || isBreak x) = true := by
    obtain ⟨x, blanks', rfl⟩ := List.exists_cons_of_ne_nil hne
    simp [hblanks x List.mem_cons_self]
  rw [behindWord]
  simp only [Cursor.peek, hhead, hgap, Bool.not_true, Bool.false_eq_true, if_false]
  exact if_neg hindent

theorem plainWord_blanks {blanks : List Char} (hne : blanks ≠ [])
    (hblanks : ∀ c ∈ blanks, isBlank c = true) (after : List Char) :
    plainWord false (blanks ++ after) = (0, false) := by
  obtain ⟨x, blanks, rfl⟩ := List.exists_cons_of_ne_nil hne
  simp [plainWord, hblanks x List.mem_cons_self]

theorem scanPlainFrom_gap {word blanks rest : List Char} (hword : ∀ c ∈ word, isMark c = true)
    (hne : blanks ≠ []) (hblanks : ∀ c ∈ blanks, isBlank c = true)
    (hrest : rest.head?.all isMark = true) {previous : Option Char}
    (hplain : Plain previous (word ++ (blanks ++ rest))) (hprevious : isGap previous = true)
    {tail : List Char} {m : Mark}
    (hdocument : (⟨word ++ (blanks ++ (rest ++ tail)), m⟩ : Cursor).atAnyDocumentMark = false)
    {indent : Nat} (hcolumn : indent ≤ m.column + 1) (start : Mark) (fuel : Nat) (text : List Char)
    (stop : Mark) (broken : Bool) (gap : Gap) :
    scanPlainFrom false indent start (fuel + 1)
        ⟨text, stop, ⟨word ++ (blanks ++ (rest ++ tail)), m⟩, broken⟩ gap =
      scanPlainFrom false indent start fuel
        ⟨text ++ gap.joined ++ word, m.ahead word.length,
          ⟨rest ++ tail, m.ahead (word.length + blanks.length)⟩, false⟩ { blanks } := by
  have hword_ne : word ≠ [] := by
    rintro rfl
    obtain ⟨x, blanks, rfl⟩ := List.exists_cons_of_ne_nil hne
    have hx := hblanks x List.mem_cons_self
    exact absurd hplain.starts (by simp [isMark, hx])
  have hstop := plainWord_blanks hne hblanks (rest ++ tail)
  rw [← List.append_assoc] at hstop
  have hlength := plainWord_append hword hplain.quiet hstop
  rw [List.append_assoc] at hlength
  have hhead : word.head? ≠ some '#' := by
    simpa [List.head?_append_of_ne_nil, hword_ne] using hplain.head?_ne hprevious
  have hrest_plain := (hplain.behind_gap hne hblanks hrest).1
  have hrest_head : (rest ++ tail).head?.all isMark = true := by
    rwa [List.head?_append_of_ne_nil _ hrest_plain.ne_nil]
  have hpos := List.length_pos_iff.mpr hne
  rw [scanPlainFrom_word hword_ne hlength hhead hdocument,
    behindWord_blanks hne hblanks hrest_head (by simp only [Mark.ahead]; omega), Mark.ahead_ahead]

/-- A plain text is read up to its end, whatever is done there. -/
theorem scanPlainFrom_text {cs : List Char} (hwords : Words cs) {tail : List Char}
    (hstop : plainWord false tail = (0, false)) {previous : Option Char}
    (hplain : Plain previous cs) (hprevious : isGap previous = true) {m : Mark}
    (hdocument : (⟨cs ++ tail, m⟩ : Cursor).atAnyDocumentMark = false) {indent : Nat}
    (hcolumn : indent ≤ m.column + 1) (start : Mark) (fuel : Nat) (hfuel : cs.length ≤ fuel)
    (text : List Char) (stop : Mark) (broken : Bool) (gap : Gap) :
    ∃ left, scanPlainFrom false indent start fuel ⟨text, stop, ⟨cs ++ tail, m⟩, broken⟩ gap =
      behindWord indent start left (text ++ gap.joined ++ cs) ⟨tail, m.ahead cs.length⟩ := by
  obtain ⟨fuel, rfl⟩ : ∃ k, fuel = k + 1 :=
    ⟨fuel - 1, by have := List.length_pos_iff.mpr hplain.ne_nil; omega⟩
  induction hwords generalizing previous m fuel text stop broken gap with
  | @word word hword =>
    have hquiet : hasIndicator previous (word ++ []) = false := by simpa using hplain.quiet
    have hlength := plainWord_append hword hquiet hstop
    exact ⟨fuel, scanPlainFrom_word hplain.ne_nil hlength (hplain.head?_ne hprevious) hdocument
      indent start fuel text stop broken gap⟩
  | @gap word blanks rest hword hne hblanks hrest more ih =>
    obtain ⟨hrest_plain, hgap⟩ := hplain.behind_gap hne hblanks hrest
    have hblanks_pos := List.length_pos_iff.mpr hne
    have hrest_pos := List.length_pos_iff.mpr hrest_plain.ne_nil
    simp only [List.length_append] at hfuel
    obtain ⟨fuel, rfl⟩ : ∃ k, fuel = k + 1 := ⟨fuel - 1, by omega⟩
    have hcolumn_ne : (m.ahead (word.length + blanks.length)).column ≠ 0 := by
      simp only [Mark.ahead]; omega
    obtain ⟨left, hleft⟩ := ih hrest_plain hgap (m := m.ahead (word.length + blanks.length))
      (Cursor.atAnyDocumentMark_of_column hcolumn_ne) (by simp only [Mark.ahead]; omega)
      (text ++ gap.joined ++ word) (m.ahead word.length) false { blanks } fuel (by omega)
    have hjoined : ({ blanks } : Gap).joined = blanks := rfl
    refine ⟨left, ?_⟩
    simp only [hjoined, Mark.ahead_ahead, List.append_assoc, List.length_append, Nat.add_assoc]
      at hleft hdocument ⊢
    rw [scanPlainFrom_gap hword hne hblanks hrest hplain hprevious hdocument hcolumn,
      List.append_assoc, hleft]

section Ends

variable {cs : List Char} (hplain : Plain none cs) {indent : Nat} {m : Mark}
  (hcolumn : indent ≤ m.column + 1)

include hplain hcolumn

/-- A plain text ends where a line begins that is indented less. -/
theorem scanPlain_line {column : Nat} (hless : column < indent) {content : List Char}
    (hcontent : content.head?.all isMark = true)
    (hdocument : (⟨cs ++ '\n' :: (List.replicate column ' ' ++ content), m⟩ :
      Cursor).atAnyDocumentMark = false) :
    scanPlain false indent ⟨cs ++ '\n' :: (List.replicate column ' ' ++ content), m⟩ =
      .ok ⟨cs, m.ahead cs.length,
        ⟨content, ⟨m.index + cs.length + 1 + column, m.line + 1, column⟩⟩, true⟩ := by
  have hstop : plainWord false ('\n' :: (List.replicate column ' ' ++ content)) = (0, false) := rfl
  obtain ⟨left, hleft⟩ := scanPlainFrom_text (.of_unbroken hplain.unbroken) hstop hplain rfl
    hdocument hcolumn m ((cs ++ '\n' :: (List.replicate column ' ' ++ content)).length + 1)
    (by simp; omega) [] m false {}
  have hgap := takeGap_line m indent column hcontent
    (('\n' :: (List.replicate column ' ' ++ content)).length + 1) (by simp; omega)
    (m.ahead cs.length)
  rw [scanPlain, hleft, behindWord]
  simp only [hgap]
  exact if_pos hless

/-- A plain text ends before a colon with a gap behind it. -/
theorem scanPlain_colon {rest : List Char} (hrest : isGap rest.head? = true)
    (hdocument : (⟨cs ++ ':' :: rest, m⟩ : Cursor).atAnyDocumentMark = false) :
    scanPlain false indent ⟨cs ++ ':' :: rest, m⟩ =
      .ok ⟨cs, m.ahead cs.length, ⟨':' :: rest, m.ahead cs.length⟩, false⟩ := by
  have hstop : plainWord false (':' :: rest) = (0, false) := by simp [plainWord, hrest]
  obtain ⟨left, hleft⟩ := scanPlainFrom_text (.of_unbroken hplain.unbroken) hstop hplain rfl
    hdocument hcolumn m ((cs ++ ':' :: rest).length + 1) (by simp; omega) [] m false {}
  rw [scanPlain, hleft]
  rfl

end Ends

/-- A quote is written twice. -/
def doubleQuotes (cs : List Char) : List Char :=
  cs.flatMap fun c => if c = '\'' then ['\'', '\''] else [c]

theorem singleQuoted_of_unbroken (indent : Nat) {cs : List Char}
    (h : ∀ c ∈ cs, isBreak c = false) :
    (singleQuoted indent cs).toList = '\'' :: (doubleQuotes cs ++ ['\'']) := by
  have hbody : singleQuoted.body indent false cs = doubleQuotes cs := by
    induction cs with
    | nil => rfl
    | cons c rest ih =>
      obtain ⟨hc, hrest⟩ := List.forall_mem_cons.mp h
      rw [singleQuoted.body, hc, ih hrest]
      rfl
  rw [singleQuoted, hbody, String.toList_ofList, List.cons_append]

theorem doubleQuotes_append (xs ys : List Char) :
    doubleQuotes (xs ++ ys) = doubleQuotes xs ++ doubleQuotes ys := List.flatMap_append

theorem doubleQuotes_blanks {blanks : List Char} (h : ∀ c ∈ blanks, isBlank c = true) :
    doubleQuotes blanks = blanks := by
  induction blanks with
  | nil => rfl
  | cons c rest ih =>
    obtain ⟨hc, hrest⟩ := List.forall_mem_cons.mp h
    have hquote : c ≠ '\'' := by rintro rfl; exact absurd hc (by decide)
    change (if c = '\'' then ['\'', '\''] else [c]) ++ doubleQuotes rest = c :: rest
    rw [if_neg hquote, ih hrest, List.singleton_append]

theorem length_le_doubleQuotes (cs : List Char) : cs.length ≤ (doubleQuotes cs).length := by
  induction cs with
  | nil => exact Nat.le_refl 0
  | cons c rest ih =>
    have hc : 1 ≤ (if c = '\'' then ['\'', '\''] else [c]).length := by split <;> simp
    change rest.length + 1 ≤ ((if c = '\'' then ['\'', '\''] else [c]) ++ doubleQuotes rest).length
    rw [List.length_append]
    omega

/-- Something at which a word between single quotes ends. -/
def endsQuotedWord (after : List Char) : Prop :=
  after.head?.any isBlank = true ∨ ∃ tail, after = '\'' :: tail ∧ tail.head? ≠ some '\''

theorem scanQuotedWord_stop {after : List Char} (hafter : endsQuotedWord after) (start : Mark)
    (fuel : Nat) (text : List Char) (m : Mark) :
    scanQuotedWord true start fuel text ⟨after, m⟩ = .ok (text, false, ⟨after, m⟩) := by
  cases fuel with
  | zero => rfl
  | succ fuel =>
    rcases hafter with hblank | ⟨tail, rfl, htail⟩
    · cases after with
      | nil => simp at hblank
      | cons x after =>
        have hx : isBlank x = true := hblank
        simp [scanQuotedWord, hx]
    · have hmark : isBlank '\'' = false ∧ isBreak '\'' = false := by decide
      simp [scanQuotedWord, hmark, htail]

theorem scanQuotedWord_append {word : List Char} (hword : ∀ c ∈ word, isMark c = true)
    {after : List Char} (hafter : endsQuotedWord after) (start : Mark) (fuel : Nat)
    (hfuel : word.length ≤ fuel) (text : List Char) (m : Mark) :
    scanQuotedWord true start fuel text ⟨doubleQuotes word ++ after, m⟩ =
      .ok (text ++ word, false, ⟨after, m.ahead (doubleQuotes word).length⟩) := by
  induction word generalizing fuel text m with
  | nil =>
    rw [List.append_nil]
    exact scanQuotedWord_stop hafter start fuel text m
  | cons c word ih =>
    obtain ⟨hc, hword⟩ := List.forall_mem_cons.mp hword
    obtain ⟨hblank, hbreak⟩ := (isMark_iff c).mp hc
    obtain ⟨fuel, rfl⟩ : ∃ k, fuel = k + 1 := ⟨fuel - 1, by simp at hfuel; omega⟩
    have hrest (text m) := ih hword fuel (by simpa using hfuel) text m
    by_cases hquote : c = '\''
    · subst hquote
      have hstep : scanQuotedWord true start (fuel + 1) text
          ⟨'\'' :: '\'' :: (doubleQuotes word ++ after), m⟩ =
          scanQuotedWord true start fuel (text ++ ['\'']) ⟨doubleQuotes word ++ after, m.ahead 2⟩ := by
        simp only [scanQuotedWord, hblank, hbreak]
        rfl
      have hdouble : doubleQuotes ('\'' :: word) = '\'' :: '\'' :: doubleQuotes word := rfl
      rw [hdouble, List.cons_append, List.cons_append, hstep, hrest]
      simp [Mark.ahead_ahead, Nat.add_comm 2]
    · have hdouble : doubleQuotes (c :: word) = c :: doubleQuotes word := by
        simp [doubleQuotes, hquote]
      have hstep : scanQuotedWord true start (fuel + 1) text
          ⟨c :: (doubleQuotes word ++ after), m⟩ =
          scanQuotedWord true start fuel (text ++ [c]) ⟨doubleQuotes word ++ after, m.ahead 1⟩ := by
        simp [scanQuotedWord, hblank, hbreak, hquote, Cursor.skip_cons]
      rw [hdouble, List.cons_append, hstep, hrest]
      simp [Mark.ahead_ahead, Nat.add_comm]

def behindQuotedWord (start : Mark) (fuel : Nat) (text : List Char) (c : Cursor) :
    Scanned Content := do
  if c.is '\'' then return ⟨text, c.skip.mark, c.skip, false⟩
  let (gap, c) ← takeGap start 0 (c.rest.length + 1) {} c
  scanQuotedFrom true start fuel (text ++ gap.joined) c

theorem scanQuotedFrom_word {word : List Char} (hword : ∀ c ∈ word, isMark c = true)
    {after : List Char} (hafter : endsQuotedWord after) {m : Mark} (hcolumn : m.column ≠ 0)
    (start : Mark) (fuel : Nat) (text : List Char) :
    scanQuotedFrom true start (fuel + 1) text ⟨doubleQuotes word ++ after, m⟩ =
      behindQuotedWord start fuel (text ++ word) ⟨after, m.ahead (doubleQuotes word).length⟩ := by
  have hread := scanQuotedWord_append hword hafter start
    ((doubleQuotes word ++ after).length + 1)
    (by have := length_le_doubleQuotes word; simp only [List.length_append]; omega) [] m
  have hend : (⟨doubleQuotes word ++ after, m⟩ : Cursor).atEnd = false := by
    have hne : after ≠ [] := by
      rcases hafter with h | ⟨tail, rfl, -⟩
      · rintro rfl; simp at h
      · exact List.cons_ne_nil _ _
    simp [Cursor.atEnd, hne]
  have hdocument : (⟨doubleQuotes word ++ after, m⟩ : Cursor).atAnyDocumentMark = false :=
    Cursor.atAnyDocumentMark_of_column hcolumn
  rw [scanQuotedFrom, behindQuotedWord]
  simp only [hdocument, hend, Bool.false_eq_true, if_false, if_true]
  rw [hread]
  rfl

theorem head?_doubleQuotes {cs : List Char} (h : cs.head?.all isMark = true) (tail : List Char) :
    (doubleQuotes cs ++ '\'' :: tail).head?.all isMark = true := by
  cases cs with
  | nil => rfl
  | cons c rest =>
    by_cases hc : c = '\''
    · subst hc; rfl
    · simpa [doubleQuotes, hc] using h

theorem scanQuotedFrom_gap {word blanks after : List Char} (hword : ∀ c ∈ word, isMark c = true)
    (hne : blanks ≠ []) (hblanks : ∀ c ∈ blanks, isBlank c = true)
    (hafter : after.head?.all isMark = true) {m : Mark} (hcolumn : m.column ≠ 0) (start : Mark)
    (fuel : Nat) (text : List Char) :
    scanQuotedFrom true start (fuel + 1) text ⟨doubleQuotes word ++ (blanks ++ after), m⟩ =
      scanQuotedFrom true start fuel (text ++ word ++ blanks)
        ⟨after, m.ahead ((doubleQuotes word).length + blanks.length)⟩ := by
  obtain ⟨x, hx, hmem⟩ : ∃ x, blanks.head? = some x ∧ x ∈ blanks := by
    obtain ⟨x, blanks, rfl⟩ := List.exists_cons_of_ne_nil hne
    exact ⟨x, rfl, List.mem_cons_self⟩
  have hhead : (blanks ++ after).head? = some x := by rw [List.head?_append_of_ne_nil _ hne, hx]
  have hends : endsQuotedWord (blanks ++ after) := .inl (by rw [hhead]; exact hblanks x hmem)
  have hquote : (⟨blanks ++ after, m.ahead (doubleQuotes word).length⟩ : Cursor).is '\'' = false := by
    have hx_ne : x ≠ '\'' := by rintro rfl; exact absurd (hblanks _ hmem) (by decide)
    simp [Cursor.is, Cursor.peek, hhead, hx_ne]
  have hgap := takeGap_blanks start 0 hblanks hafter ((blanks ++ after).length + 1) (by simp; omega)
    (g := {}) rfl (m.ahead (doubleQuotes word).length)
  rw [scanQuotedFrom_word hword hends hcolumn, behindQuotedWord]
  simp only [hquote, hgap, Mark.ahead_ahead]
  rfl

/-- A text between single quotes is read up to the quote that stands alone. -/
theorem scanQuotedFrom_text {cs : List Char} (hwords : Words cs) {tail : List Char}
    (htail : tail.head? ≠ some '\'') {m : Mark} (hcolumn : m.column ≠ 0) (start : Mark) (fuel : Nat)
    (hfuel : cs.length < fuel) (text : List Char) :
    scanQuotedFrom true start fuel text ⟨doubleQuotes cs ++ '\'' :: tail, m⟩ =
      .ok ⟨text ++ cs, m.ahead ((doubleQuotes cs).length + 1),
        ⟨tail, m.ahead ((doubleQuotes cs).length + 1)⟩, false⟩ := by
  obtain ⟨fuel, rfl⟩ : ∃ k, fuel = k + 1 := ⟨fuel - 1, by omega⟩
  induction hwords generalizing m fuel text with
  | @word word hword =>
    rw [scanQuotedFrom_word hword (.inr ⟨tail, rfl, htail⟩) hcolumn]
    simp only [behindQuotedWord, Cursor.is, Cursor.peek, List.head?_cons, decide_true, if_true,
      Cursor.skip_cons, Mark.ahead_ahead]
    rfl
  | @gap word blanks rest hword hne hblanks hrest more ih =>
    have hpos := List.length_pos_iff.mpr hne
    simp only [List.length_append] at hfuel
    obtain ⟨fuel, rfl⟩ : ∃ k, fuel = k + 1 := ⟨fuel - 1, by omega⟩
    have hmore := ih (m := m.ahead ((doubleQuotes word).length + blanks.length))
      (by simp only [Mark.ahead]; omega) (text ++ word ++ blanks) fuel (by omega)
    rw [doubleQuotes_append, doubleQuotes_append, doubleQuotes_blanks hblanks, List.append_assoc,
      List.append_assoc, scanQuotedFrom_gap hword hne hblanks (head?_doubleQuotes hrest tail) hcolumn,
      hmore]
    simp [Mark.ahead_ahead, Nat.add_assoc]

/-- A line of text between single quotes is read as it was written. -/
theorem scanQuoted_single {cs : List Char} (hunbroken : ∀ c ∈ cs, isBreak c = false)
    {tail : List Char} (htail : tail.head? ≠ some '\'') (m : Mark) :
    scanQuoted true ⟨'\'' :: (doubleQuotes cs ++ '\'' :: tail), m⟩ =
      .ok ⟨cs, m.ahead ((doubleQuotes cs).length + 2),
        ⟨tail, m.ahead ((doubleQuotes cs).length + 2)⟩, false⟩ := by
  have hlength := length_le_doubleQuotes cs
  have hread := scanQuotedFrom_text (.of_unbroken hunbroken) htail (m := m.ahead 1)
    (Nat.succ_ne_zero _) m (('\'' :: (doubleQuotes cs ++ '\'' :: tail)).length + 1)
    (by simp only [List.length_cons, List.length_append]; omega) []
  rw [Mark.ahead_ahead] at hread
  rw [scanQuoted, Cursor.skip_cons, hread, Nat.add_comm 1]
  rfl

end Yaml
end FlowObserver
