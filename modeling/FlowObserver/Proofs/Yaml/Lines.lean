import FlowObserver.Proofs.Yaml.Scalars
import FlowObserver.Yaml.Lexer

/-!
# Values of one line

A truth value, a natural number and a line of printable text are written as one scalar. Main result:
that scalar is plain or between single quotes, and it denotes the value that was written
(`shown_of_leaf`).
-/

namespace FlowObserver
namespace Yaml

theorem eq_space_of_isBlank {c : Char} (hprintable : isPrintable c = true) (h : isBlank c = true) :
    c = ' ' := by
  simp only [isBlank, Bool.or_eq_true, decide_eq_true_eq] at h
  rcases h with rfl | rfl
  · rfl
  · exact absurd hprintable (by decide)

/-- A text that may stand without quotes, as the printer decides it. -/
theorem Plain.of_allowsPlain {cs : List Char} (hne : cs ≠ [])
    (h : (Shape.of cs).allowsPlain = true) :
    Plain none cs ∧ ['-', '-', '-'].isPrefixOf cs = false ∧ ['.', '.', '.'].isPrefixOf cs = false := by
  simp only [Shape.allowsPlain, Shape.of, Bool.and_eq_true, Bool.not_eq_true',
    Bool.or_eq_false_iff] at h
  obtain ⟨⟨⟨⟨⟨hdashes, hdots⟩, hquiet⟩, hspecial⟩, hbreaks⟩, hfirst, hlast⟩ := h
  have hprintable : ∀ c ∈ cs, isPrintable c = true := by simpa using hspecial
  have hunbroken : ∀ c ∈ cs, isBreak c = false := by simpa using hbreaks
  have hmark {c : Char} (hc : c ∈ cs) (hspace : c ≠ ' ') : isMark c = true :=
    (isMark_iff c).mpr ⟨Bool.eq_false_iff.mpr fun hblank =>
      hspace (eq_space_of_isBlank (hprintable c hc) hblank), hunbroken c hc⟩
  refine ⟨⟨?_, ?_, hunbroken, hquiet⟩, hdashes, hdots⟩
  · rw [List.head?_eq_some_head hne] at hfirst ⊢
    exact hmark (List.head_mem hne) fun hspace => by simp [hspace] at hfirst
  · rw [List.getLast?_eq_some_getLast hne] at hlast ⊢
    exact hmark (List.getLast_mem hne) fun hspace => by simp [hspace] at hlast

/-- A key that is written without quotes, and short enough to be read as one. -/
structure IsKey (s : String) : Prop where
  nonempty : s.toList ≠ []
  plain : (Shape.of s.toList).allowsPlain = true
  short : s.toList.length ≤ Lexer.maxKeyLength

instance (s : String) : Decidable (IsKey s) :=
  decidable_of_iff (s.toList ≠ [] ∧ (Shape.of s.toList).allowsPlain = true ∧
      s.toList.length ≤ Lexer.maxKeyLength)
    ⟨fun ⟨hne, hplain, hshort⟩ => ⟨hne, hplain, hshort⟩, fun ⟨hne, hplain, hshort⟩ =>
      ⟨hne, hplain, hshort⟩⟩

theorem eq_of_resolve_eq_str {s t : String} (h : resolve s = .str t) : t = s := by
  rw [resolve] at h
  split at h
  · cases h
  · split at h
    · cases h
    · split at h
      · cases h
      · split at h
        · cases h
        · cases h
          rfl

theorem resolve_of_isUnambiguous {s : String} (h : isUnambiguous s = true) : resolve s = .str s := by
  rw [isUnambiguous, Bool.and_eq_true] at h
  have htext := h.2
  split at htext
  case h_1 t ht => rw [ht, eq_of_resolve_eq_str ht]
  case h_2 => contradiction

def OneLine (s : String) : Prop := ∀ c ∈ s.toList, isPrintable c = true ∧ isBreak c = false

instance (s : String) : Decidable (OneLine s) :=
  List.decidableBAll (fun c => isPrintable c = true ∧ isBreak c = false) s.toList

theorem hasPair_of_first {first second : Char → Bool} {cs : List Char}
    (h : ∀ c ∈ cs, first c = false) : hasPair first second cs = false := by
  fun_induction hasPair first second cs with
  | case1 a b rest ih =>
    obtain ⟨ha, hrest⟩ := List.forall_mem_cons.mp h
    simp [ha, ih hrest]
  | case2 => rfl

theorem hasPair_of_second {first second : Char → Bool} {cs : List Char}
    (h : ∀ c ∈ cs, second c = false) : hasPair first second cs = false := by
  fun_induction hasPair first second cs with
  | case1 a b rest ih =>
    obtain ⟨-, hrest⟩ := List.forall_mem_cons.mp h
    simp [hrest b List.mem_cons_self, ih hrest]
  | case2 => rfl

theorem styleOf_line {s : String} (h : OneLine s) :
    (styleOf s = .plain ∧ isUnambiguous s = true ∧ (Shape.of s.toList).allowsPlain = true) ∨
      styleOf s = .single := by
  have hbreaks : ∀ c ∈ s.toList, isBreak c = false := fun c hc => (h c hc).2
  have hline : s.contains '\n' = false := by
    have hmem : '\n' ∉ s.toList := fun hmem => absurd (hbreaks _ hmem) (by decide)
    simp [hmem]
  have hsingle : (Shape.of s.toList).allowsSingle = true := by
    have hspecial : (s.toList.any fun c => !isPrintable c) = false := by
      simpa using fun c hc => (h c hc).1
    simp [Shape.allowsSingle, Shape.of, hspecial, hasPair_of_first hbreaks,
      hasPair_of_second hbreaks]
  rw [styleOf]
  simp only [hline, hsingle, Bool.false_eq_true, if_false, if_true]
  by_cases hplain : (isUnambiguous s && (Shape.of s.toList).allowsPlain) = true
  · exact .inl ⟨if_pos hplain, by simpa using hplain⟩
  · exact .inr (if_neg hplain)

theorem toNat_lt_of_isAlphanum {c : Char} (h : c.isAlphanum = true) : c.toNat < 128 := by
  simp only [Char.isAlphanum, Char.isAlpha, Char.isUpper, Char.isLower, Char.isDigit,
    Bool.or_eq_true, Bool.and_eq_true, decide_eq_true_eq, ge_iff_le, UInt32.le_iff_toNat_le] at h
  change c.val.toNat < 128
  rcases h with (⟨-, h⟩ | ⟨-, h⟩) | ⟨-, h⟩
  · exact Nat.lt_of_le_of_lt h (by decide)
  · exact Nat.lt_of_le_of_lt h (by decide)
  · exact Nat.lt_of_le_of_lt h (by decide)

/-- What holds of all letters and digits can be tried out. -/
theorem of_isAlphanum {p : Char → Bool}
    (hp : ∀ n < 128, (Char.ofNat n).isAlphanum = true → p (Char.ofNat n) = true) {c : Char}
    (h : c.isAlphanum = true) : p c = true := by
  have hc := hp c.toNat (toNat_lt_of_isAlphanum h)
  rw [Char.ofNat_toNat] at hc
  exact hc h

theorem isMark_of_isAlphanum {c : Char} (h : c.isAlphanum = true) : isMark c = true :=
  of_isAlphanum (by decide +kernel) h

theorem isPrintable_of_isAlphanum {c : Char} (h : c.isAlphanum = true) : isPrintable c = true :=
  of_isAlphanum (by decide +kernel) h

theorem ofLine_of_isAlphanum {c : Char} (h : c.isAlphanum = true) :
    isPrintable c = true ∧ isBreak c = false :=
  ⟨isPrintable_of_isAlphanum h, ((isMark_iff c).mp (isMark_of_isAlphanum h)).2⟩

theorem isIndicator_of_isAlphanum {c : Char} (h : c.isAlphanum = true)
    (previous next : Option Char) : isIndicator previous c next = false := by
  have hother : (!isLeadIndicator c && c ≠ '?' && c ≠ ':' && c ≠ '-') = true :=
    of_isAlphanum (p := fun c => !isLeadIndicator c && c ≠ '?' && c ≠ ':' && c ≠ '-')
      (by decide +kernel) h
  have hcomment : c ≠ '#' := by rintro rfl; exact absurd h (by decide)
  simp only [Bool.and_eq_true, Bool.not_eq_true', decide_eq_true_eq] at hother
  cases previous <;> simp [isIndicator, hother, hcomment]

/-- Letters and digits stand for no syntax. -/
theorem plain_of_isAlphanum {cs : List Char} (hne : cs ≠ [])
    (h : ∀ c ∈ cs, c.isAlphanum = true) : Plain none cs := by
  have hquiet (previous : Option Char) : hasIndicator previous cs = false := by
    clear hne
    induction cs generalizing previous with
    | nil => rfl
    | cons c cs ih =>
      obtain ⟨hc, hcs⟩ := List.forall_mem_cons.mp h
      rw [hasIndicator, isIndicator_of_isAlphanum hc, ih hcs, Bool.or_self]
  refine ⟨?_, ?_, fun c hc => ((isMark_iff c).mp (isMark_of_isAlphanum (h c hc))).2, hquiet none⟩
  · rw [List.head?_eq_some_head hne]
    exact isMark_of_isAlphanum (h _ (List.head_mem hne))
  · rw [List.getLast?_eq_some_getLast hne]
    exact isMark_of_isAlphanum (h _ (List.getLast_mem hne))

theorem hexValue?_of_isDigit {c : Char} (h : c.isDigit = true) :
    Bytes.hexValue? c = some (c.toNat - 48) ∧ c.toNat - 48 < 10 := by
  simp only [Char.isDigit, Bool.and_eq_true, decide_eq_true_eq] at h
  have hupper : c.toNat ≤ 57 := UInt32.le_iff_toNat_le.mp h.2
  exact ⟨if_pos h, by omega⟩

theorem toList_toString (n : Nat) : (toString n).toList = Nat.toDigits 10 n := by
  rw [Nat.toString_eq_repr, Nat.repr, String.toList_ofList]

theorem isAlphanum_toString (n : Nat) : ∀ c ∈ (toString n).toList, c.isAlphanum = true := by
  intro c hc
  rw [toList_toString] at hc
  rw [Char.isAlphanum, Nat.isDigit_of_mem_toDigits (by decide) (by decide) hc, Bool.or_true]

theorem digits?_toDigits (n : Nat) : digits? 10 (Nat.toDigits 10 n) = some n := by
  have hfold {cs : List Char} (h : ∀ c ∈ cs, c.isDigit = true) (n : Nat) :
      cs.foldlM (fun n c => do
        let d ← Bytes.hexValue? c
        guard (d < 10)
        return n * 10 + d) n = some (Nat.ofDigitChars 10 cs n) := by
    induction cs generalizing n with
    | nil => rfl
    | cons c cs ih =>
      obtain ⟨hc, hcs⟩ := List.forall_mem_cons.mp h
      obtain ⟨hvalue, hlt⟩ := hexValue?_of_isDigit hc
      rw [List.foldlM_cons, Nat.ofDigitChars_cons, hvalue]
      simpa [hlt, Nat.mul_comm] using ih hcs (n * 10 + (c.toNat - 48))
  have hdigits : ∀ c ∈ Nat.toDigits 10 n, c.isDigit = true := fun c hc =>
    Nat.isDigit_of_mem_toDigits (by decide) (by decide) hc
  have hne : (Nat.toDigits 10 n).isEmpty = false := by simp [Nat.toDigits_ne_nil]
  rw [digits?, hne, hfold hdigits, Nat.ofDigitChars_ten_toDigits]
  rfl

/-- No digit zero stands in front. -/
theorem head?_toDigits {n : Nat} (h : n ≠ 0) : (Nat.toDigits 10 n).head? ≠ some '0' := by
  induction n using Nat.strong_induction_on with
  | _ n ih =>
    rw [Nat.toDigits_eq_if (by decide)]
    split
    · interval_cases n <;> simp_all
    · rw [List.head?_append_of_ne_nil _ Nat.toDigits_ne_nil]
      exact ih (n / 10) (by omega) (by omega)

/-- No word stands for a text that begins with a digit. -/
theorem contains_of_digit {s : String} {c : Char} {cs : List Char} (hs : s.toList = c :: cs)
    (hc : c.isDigit = true) {names : List String}
    (hnames : ∀ t ∈ names, t.toList.head?.any Char.isDigit = false) : names.contains s = false := by
  rw [List.contains_eq_mem, decide_eq_false_iff_not]
  intro hmem
  have hhead := hnames s hmem
  rw [hs] at hhead
  exact absurd hc (by simpa using hhead)

theorem resolve_toString {n : Nat} (h : n < wideLimit) : resolve (toString n) = .int n := by
  by_cases hzero : n = 0
  · subst hzero; rfl
  have hdigits := toList_toString n
  obtain ⟨c, cs, hcs⟩ := List.exists_cons_of_ne_nil (@Nat.toDigits_ne_nil n 10)
  have hc : c.isDigit = true :=
    Nat.isDigit_of_mem_toDigits (by decide) (by decide) (hcs ▸ List.mem_cons_self)
  have hfirst : c ≠ '0' := by simpa [hcs] using head?_toDigits hzero
  rw [hcs] at hdigits
  have hnull : isNull (toString n) = false := contains_of_digit hdigits hc (by decide)
  have hbool : bool? (toString n) = none := by
    rw [bool?, contains_of_digit hdigits hc (by decide), contains_of_digit hdigits hc (by decide)]
    rfl
  have hsign : unsign (toString n).toList = (false, c :: cs) := by
    rw [hdigits, unsign]
    · rintro rest h; cases h; exact absurd hc (by decide)
    · rintro rest h; cases h; exact absurd hc (by decide)
  have hled : zeroLed (toString n) = false := by
    rw [zeroLed, hsign]
    split
    · rename_i heq; cases heq; contradiction
    · rfl
  have hint : int? (toString n) = some (n : Int) := by
    have hvalue := digits?_toDigits n
    rw [hcs] at hvalue
    rw [int?, hsign]
    dsimp only
    split
    case h_4 =>
      rw [hled, if_neg Bool.false_ne_true, hvalue]
      simp [h]
    all_goals
      rename_i heq
      cases heq
      exact absurd rfl hfirst
  rw [resolve, if_neg (by rw [hnull]; simp), hbool, hint]

/-- A value of one line. -/
inductive Leaf : Json → Prop
  | str {s : String} (h : OneLine s) : Leaf (.str s)
  | bool (b : Bool) : Leaf (.bool b)
  | nat {n : Nat} (h : n < wideLimit) : Leaf (.int n)

def scalarText : Json → List Char
  | .str s => if styleOf s = .plain then s.toList else '\'' :: (doubleQuotes s.toList ++ ['\''])
  | j => j.compact.toList

def scalarToken : Json → TokenKind
  | .str s => .scalar s (if styleOf s = .plain then .plain else .quoted)
  | j => .scalar j.compact .plain

/-- What is written denotes the value that the token stands for. -/
inductive Shown : Json → List Char → TokenKind → Prop
  | plain {s : String} {j : Json} (hplain : Plain none s.toList) (hvalue : resolve s = j) :
    Shown j s.toList (.scalar s .plain)
  | quoted {s : String} (hunbroken : ∀ c ∈ s.toList, isBreak c = false) :
    Shown (.str s) ('\'' :: (doubleQuotes s.toList ++ ['\''])) (.scalar s .quoted)

theorem shown_of_leaf {j : Json} (h : Leaf j) : Shown j (scalarText j) (scalarToken j) := by
  cases h with
  | @str s hline =>
    rcases styleOf_line hline with ⟨hstyle, htext, hplain⟩ | hstyle
    · have hne : s.toList ≠ [] := by
        intro hempty
        rw [String.toList_eq_nil_iff] at hempty
        rw [hempty] at htext
        exact absurd htext (by decide)
      simp only [scalarText, scalarToken, hstyle, if_true]
      exact .plain (Plain.of_allowsPlain hne hplain).1 (resolve_of_isUnambiguous htext)
    · simp only [scalarText, scalarToken, hstyle, reduceCtorEq, if_false]
      exact .quoted fun c hc => (hline c hc).2
  | bool b => cases b <;> exact .plain (plain_of_isAlphanum (by decide) (List.all_eq_true.mp (by decide))) rfl
  | @nat n hn =>
    have hne : (toString n).toList ≠ [] := toList_toString n ▸ Nat.toDigits_ne_nil
    exact .plain (plain_of_isAlphanum hne (isAlphanum_toString n)) (resolve_toString hn)

section Written

variable {j : Json} (h : Leaf j) (indent : Nat)

include h

theorem itemValue_leaf : (itemValue indent j).toList = scalarText j ++ ['\n'] := by
  cases h with
  | @str s hline =>
    have hunbroken : ∀ c ∈ s.toList, isBreak c = false := fun c hc => (hline c hc).2
    rw [itemValue, textLine, scalarText]
    rcases styleOf_line hline with ⟨hstyle, -⟩ | hstyle
    · simp [hstyle]
    · simp [hstyle, singleQuoted_of_unbroken _ hunbroken]
  | bool b => simp [itemValue, scalarText]
  | nat => simp [itemValue, scalarText]

theorem entryValue_leaf : (entryValue indent j).toList = ' ' :: (scalarText j ++ ['\n']) := by
  rw [← itemValue_leaf h indent]
  cases h with
  | str => simp [entryValue, itemValue]
  | bool => simp [entryValue, itemValue]
  | nat => simp [entryValue, itemValue]

end Written

end Yaml
end FlowObserver
