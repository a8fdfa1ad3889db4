import FlowObserver.Time.Human
import Mathlib

/-!
# Reading written durations

A written duration is a row of amounts, each a count of at least one and the name of a unit, and
what the amounts are worth together is the duration. In any spelling of which this and the units are
all that is known, and which adds amounts up in checked 64-bit arithmetic, none of the checks fails:
no count leaves 64 bits, and no sum passes the duration. So what is written is read back
(`Spelling.Documented.read_write`). Durations as people write them are such a spelling
(`human_documented`).
-/

namespace FlowObserver
namespace Duration

/-- The name stands for a unit of so many nanoseconds and is made of letters. -/
structure Names (name : String) (unit : Nat) : Prop where
  unit : (timeUnit? name).map TimeUnit.nanos = some unit
  nonempty : name.toList ≠ []
  letters : name.toList.all isUnitLetter = true

theorem Names.isUnitLetter {name : String} {unit : Nat} (h : Names name unit) :
    ∀ c ∈ name.toList, isUnitLetter c = true := List.all_eq_true.mp h.letters

structure Amount where
  count : Nat
  unit : Nat
  name : String

namespace Amount

def nanos (a : Amount) : Nat := a.count * a.unit

/-- An amount of nothing is not written. -/
def items (a : Amount) : List String := item a.name a.count

def shown (a : Amount) : String := toString a.count ++ a.name

def line (as : List Amount) : String := " ".intercalate (as.map shown)

/-- The sum of amounts, with all that is checked of 64-bit arithmetic on the way. -/
def total (sum : Duration) (as : List Amount) : Except HumanError Duration :=
  as.foldlM (fun sum a => sum.plusUnits ⟨[a.name], a.unit⟩ a.count) sum

def worth (as : List Amount) : Nat := (as.map nanos).sum

theorem worth_nil : worth [] = 0 := rfl

theorem worth_cons (a : Amount) (as : List Amount) : worth (a :: as) = a.nanos + worth as := by
  simp [worth]

/-- The unit has that name, and the count fits a word. -/
structure Known (a : Amount) : Prop extends Names a.name a.unit where
  count_lt : a.count < wordLimit

/-- A unit from a second on is counted in seconds, and smaller units do not make up a second. -/
structure Readable (a : Amount) : Prop extends Known a where
  large : nanosPerSecond ≤ a.unit → nanosPerSecond ∣ a.unit
  small : a.unit < nanosPerSecond → a.nanos < nanosPerSecond

end Amount

theorem plus_eq {sum : Duration} {nanos : Nat} {small : Bool}
    (hsmall : small = true → nanos < nanosPerSecond) (hsum : sum.nanos + nanos < durationLimit) :
    sum.plus nanos small = .ok ⟨sum.nanos + nanos, hsum⟩ := by
  have hfits : ¬(small && decide (wordLimit ≤ sum.subsecond + nanos)) = true := by
    rw [Bool.and_eq_true, decide_eq_true_eq]
    rintro ⟨hs, hover⟩
    have hpart : sum.subsecond < nanosPerSecond := Nat.mod_lt _ (by decide)
    have hmore := hsmall hs
    simp only [wordLimit, nanosPerSecond, UInt64.size] at *
    omega
  rw [plus, if_neg hfits, ofNanos?, dif_pos hsum]

theorem plusUnits_eq {a : Amount} (h : a.Readable) {sum : Duration}
    (hsum : sum.nanos + a.nanos < durationLimit) :
    sum.plusUnits ⟨[a.name], a.unit⟩ a.count = .ok ⟨sum.nanos + a.nanos, hsum⟩ := by
  have hword : a.count * (if a.unit < nanosPerSecond then a.unit else a.unit / nanosPerSecond)
      < wordLimit := by
    split_ifs with hs
    · exact (h.small hs).trans (by decide)
    · obtain ⟨k, hk⟩ := h.large (Nat.le_of_not_lt hs)
      rw [Amount.nanos, hk] at hsum
      rw [hk, Nat.mul_div_cancel_left _ (by decide)]
      have hmul : (a.count * k) * nanosPerSecond < durationLimit := by
        calc (a.count * k) * nanosPerSecond = a.count * (nanosPerSecond * k) := by ring
          _ ≤ sum.nanos + a.count * (nanosPerSecond * k) := Nat.le_add_left _ _
          _ < durationLimit := hsum
      exact Nat.lt_of_mul_lt_mul_right hmul
  simp only [plusUnits]
  rw [if_pos hword]
  exact plus_eq (fun hs => h.small (by simpa using hs)) hsum

theorem total_eq {as : List Amount} (h : ∀ a ∈ as, a.Readable) {sum : Duration}
    (hsum : sum.nanos + Amount.worth as < durationLimit) :
    Amount.total sum as = .ok ⟨sum.nanos + Amount.worth as, hsum⟩ := by
  induction as generalizing sum with
  | nil => rfl
  | cons a as ih =>
    obtain ⟨ha, has⟩ := List.forall_mem_cons.mp h
    have hworth := Amount.worth_cons a as
    have hfirst : sum.nanos + a.nanos < durationLimit := by omega
    have hrest : sum.nanos + a.nanos + Amount.worth as < durationLimit := by omega
    rw [Amount.total, List.foldlM_cons, plusUnits_eq ha hfirst]
    simp only [hworth, ← Nat.add_assoc]
    exact ih has hrest

theorem isDigit_iff (c : Char) : c.isDigit = true ↔ 48 ≤ c.toNat ∧ c.toNat ≤ 57 := by
  simp only [Char.isDigit, Bool.and_eq_true, decide_eq_true_eq, ge_iff_le, UInt32.le_iff_toNat_le]
  rfl

theorem isUnitLetter_iff (c : Char) :
    isUnitLetter c = true ↔
      (65 ≤ c.toNat ∧ c.toNat ≤ 90 ∨ 97 ≤ c.toNat ∧ c.toNat ≤ 122) ∨ c.toNat = 0xB5 := by
  have hmicro : c = 'µ' ↔ c.toNat = 0xB5 := by
    rw [← Char.toNat_inj]
    rfl
  simp only [isUnitLetter, Char.isAlpha, Char.isUpper, Char.isLower, Bool.or_eq_true,
    Bool.and_eq_true, decide_eq_true_eq, ge_iff_le, UInt32.le_iff_toNat_le, hmicro]
  rfl

theorem not_isDigit_of_isUnitLetter {c : Char} (h : isUnitLetter c = true) :
    c.isDigit = false := by
  rw [isUnitLetter_iff] at h
  rw [← Bool.not_eq_true, isDigit_iff]
  omega

theorem not_isBlank_of_isUnitLetter {c : Char} (h : isUnitLetter c = true) :
    Text.isBlank c = false := by
  rw [isUnitLetter_iff] at h
  simp only [Text.isBlank, Text.blankRanges, List.any_cons, List.any_nil, Bool.or_eq_false_iff,
    Bool.and_eq_false_iff, decide_eq_false_iff_not]
  grind

theorem ofDigitChars_cons_eq (c : Char) (ds : List Char) (n : Nat) :
    Nat.ofDigitChars 10 (c :: ds) n = Nat.ofDigitChars 10 ds (n * 10 + digitValue c) := by
  rw [Nat.ofDigitChars_cons, Nat.mul_comm, digitValue]
  rfl

theorem le_ofDigitChars (ds : List Char) (n : Nat) : n ≤ Nat.ofDigitChars 10 ds n := by
  induction ds generalizing n with
  | nil => simp
  | cons c ds ih =>
    rw [ofDigitChars_cons_eq]
    exact le_trans (by omega) (ih _)

theorem wholePart_digit (total n : Nat) {c : Char} (hc : c.isDigit = true)
    (h : n * 10 + digitValue c < wordLimit) (rest : List Char) :
    wholePart total n (c :: rest) = wholePart total (n * 10 + digitValue c) rest := by
  rw [wholePart, if_pos hc, word, if_pos h]
  rfl

theorem wholePart_digits (total : Nat) {ds : List Char} (hds : ∀ c ∈ ds, c.isDigit = true)
    {n : Nat} (h : Nat.ofDigitChars 10 ds n < wordLimit) (rest : List Char) :
    wholePart total n (ds ++ rest) = wholePart total (Nat.ofDigitChars 10 ds n) rest := by
  induction ds generalizing n with
  | nil => rfl
  | cons c ds ih =>
    obtain ⟨hc, hds⟩ := List.forall_mem_cons.mp hds
    rw [ofDigitChars_cons_eq] at h ⊢
    have hword := Nat.lt_of_le_of_lt (le_ofDigitChars ds (n * 10 + digitValue c)) h
    rw [List.cons_append, wholePart_digit total n hc hword, ih hds h]

theorem wholePart_letter (total n : Nat) {c : Char} (hc : isUnitLetter c = true)
    (rest : List Char) : wholePart total n (c :: rest) = .ok (n, c :: rest) := by
  rw [wholePart, if_neg (by simp [not_isDigit_of_isUnitLetter hc]),
    if_neg (by simp [not_isBlank_of_isUnitLetter hc]), if_pos (by simp [hc])]

namespace Amount

def text (a : Amount) : List Char := Nat.toDigits 10 a.count ++ a.name.toList

/-- What may stand behind an amount: nothing, or a space and the next amount. -/
def Separated (rest : List Char) : Prop := rest.head?.all (· = ' ') = true

theorem Separated.cases {rest : List Char} (h : Separated rest) :
    rest = [] ∨ ∃ more, rest = ' ' :: more := by
  cases rest with
  | nil => exact .inl rfl
  | cons x more =>
    obtain rfl : x = ' ' := by simpa [Separated] using h
    exact .inr ⟨more, rfl⟩

/-- A name ends where something separate follows. -/
theorem Separated.letters {name rest : List Char} (h : Separated rest)
    (hname : ∀ c ∈ name, isUnitLetter c = true) :
    (name ++ rest).takeWhile isUnitLetter = name ∧ (name ++ rest).dropWhile isUnitLetter = rest := by
  rw [List.takeWhile_append_of_pos hname, List.dropWhile_append_of_pos hname]
  obtain rfl | ⟨more, rfl⟩ := h.cases
  · exact ⟨List.append_nil name, rfl⟩
  · exact ⟨List.append_nil name, rfl⟩

end Amount

theorem startNumber_digit (total : Nat) {c : Char} (hc : c.isDigit = true) (rest : List Char) :
    startNumber total (c :: rest) = .ok (some (digitValue c, rest)) := by
  rw [startNumber, if_pos hc]

theorem startNumber_space (total : Nat) (rest : List Char) :
    startNumber total (' ' :: rest) = startNumber total rest := by
  rw [startNumber, if_neg (by decide), if_pos (by decide)]

theorem quantity_amount {a : Amount} (h : a.Known) (total : Nat) {sum more : Duration}
    (hsum : sum.plusUnits ⟨[a.name], a.unit⟩ a.count = .ok more) {rest : List Char}
    (hrest : Amount.Separated rest) {c : Char} {ds : List Char}
    (hcount : Nat.toDigits 10 a.count = c :: ds) :
    quantity total (digitValue c) sum (ds ++ (a.name.toList ++ rest)) = .ok (more, rest) := by
  have hdigits : ∀ x ∈ c :: ds, x.isDigit = true := by
    rw [← hcount]
    exact fun x hx => Nat.isDigit_of_mem_toDigits (by decide) (by decide) hx
  have hvalue : Nat.ofDigitChars 10 ds (digitValue c) = a.count := by
    rw [← @Nat.ofDigitChars_ten_toDigits a.count, hcount, ofDigitChars_cons_eq, Nat.zero_mul,
      Nat.zero_add]
  obtain ⟨letter, letters, hname⟩ := List.exists_cons_of_ne_nil h.nonempty
  have hwhole : wholePart total (digitValue c) (ds ++ (a.name.toList ++ rest)) =
      .ok (a.count, letter :: (letters ++ rest)) := by
    rw [wholePart_digits total (fun x hx => hdigits x (List.mem_cons_of_mem _ hx))
      (hvalue ▸ h.count_lt), hvalue, hname, List.cons_append]
    exact wholePart_letter total _ (h.isUnitLetter letter (by simp [hname])) _
  have hfirst : letter ≠ '.' := by
    have hletter := h.isUnitLetter letter (by simp [hname])
    rintro rfl
    exact absurd hletter (by decide)
  obtain ⟨htake, hdrop⟩ := hrest.letters h.isUnitLetter
  rw [hname, List.cons_append] at htake hdrop
  obtain ⟨u, hunit, hu⟩ := Option.map_eq_some_iff.mp h.unit
  replace hsum : sum.plusUnits u a.count = .ok more := by
    rw [← hsum, plusUnits, plusUnits, hu]
  unfold quantity
  simp only [hwhole, bind, Except.bind, pure, Except.pure]
  split
  · rename_i hdot
    exact absurd (List.cons.inj hdot).1 hfirst
  · simp only [htake, hdrop, ← hname, String.ofList_toList, hunit, hsum]
    obtain rfl | ⟨more, rfl⟩ := hrest.cases
    · rfl
    · rfl

theorem quantities_amount {a : Amount} (h : a.Known) (total fuel : Nat) {sum more : Duration}
    (hsum : sum.plusUnits ⟨[a.name], a.unit⟩ a.count = .ok more) {rest : List Char}
    (hrest : Amount.Separated rest) :
    quantities total (fuel + 1) sum (' ' :: (a.text ++ rest)) =
      quantities total fuel more rest := by
  obtain ⟨c, ds, hcount⟩ := List.exists_cons_of_ne_nil (@Nat.toDigits_ne_nil a.count 10)
  have hc : c.isDigit = true :=
    Nat.isDigit_of_mem_toDigits (by decide) (by decide) (hcount ▸ List.mem_cons_self)
  rw [Amount.text, hcount, List.append_assoc, List.cons_append, quantities, startNumber_space,
    startNumber_digit total hc]
  change (quantity total (digitValue c) sum (ds ++ (a.name.toList ++ rest)) >>= fun x =>
    quantities total fuel x.1 x.2) = _
  rw [quantity_amount h total hsum hrest hcount]
  rfl

namespace Amount

/-- Each amount behind a space. -/
def row (as : List Amount) : List Char := as.flatMap fun a => ' ' :: a.text

theorem row_cons (a : Amount) (as : List Amount) : row (a :: as) = ' ' :: (a.text ++ row as) := rfl

theorem separated_row (as : List Amount) : Separated (row as) := by
  cases as <;> rfl

end Amount

theorem quantities_row {as : List Amount} (h : ∀ a ∈ as, a.Known) (total : Nat)
    {fuel : Nat} (hfuel : as.length < fuel) {sum d : Duration}
    (hsum : Amount.total sum as = .ok d) :
    quantities total fuel sum (Amount.row as) = .ok d := by
  induction as generalizing fuel sum with
  | nil =>
    obtain ⟨fuel, rfl⟩ : ∃ k, fuel = k + 1 := ⟨fuel - 1, by simp at hfuel; omega⟩
    exact hsum
  | cons a as ih =>
    obtain ⟨ha, has⟩ := List.forall_mem_cons.mp h
    obtain ⟨fuel, rfl⟩ : ∃ k, fuel = k + 1 := ⟨fuel - 1, by omega⟩
    rw [Amount.total, List.foldlM_cons] at hsum
    cases hfirst : sum.plusUnits ⟨[a.name], a.unit⟩ a.count with
    | error e =>
      rw [hfirst] at hsum
      cases hsum
    | ok more =>
      rw [hfirst] at hsum
      rw [Amount.row_cons, quantities_amount ha total fuel hfirst (Amount.separated_row as)]
      exact ih has (by simpa using hfuel) hsum

/-- Years, months and days have a plural. -/
def long (name : String) (unit count : Nat) : Amount :=
  ⟨count, unit, if 1 < count then name ++ "s" else name⟩

def amounts (d : Duration) : List Amount :=
  let inYear := d.seconds % 31557600
  let inMonth := inYear % 2630016
  let inDay := inMonth % 86400
  [long "year" nanosPerYear (d.seconds / 31557600), long "month" nanosPerMonth (inYear / 2630016),
    long "day" nanosPerDay (inMonth / 86400), ⟨inDay / 3600, nanosPerHour, "h"⟩,
    ⟨inDay % 3600 / 60, nanosPerMinute, "m"⟩, ⟨inDay % 60, nanosPerSecond, "s"⟩,
    ⟨d.subsecond / 1000000, 1000000, "ms"⟩, ⟨d.subsecond / 1000 % 1000, 1000, "us"⟩,
    ⟨d.subsecond % 1000, 1, "ns"⟩]

theorem humanItems_eq (d : Duration) : d.humanItems = d.amounts.flatMap Amount.items := by
  simp only [humanItems, amounts, Amount.items, long, longItem, List.flatMap_cons, List.flatMap_nil,
    List.append_nil, List.append_assoc]

theorem worth_amounts (d : Duration) : Amount.worth d.amounts = d.nanos := by
  have hday (x : Nat) : x / 3600 * 3600 + x % 3600 / 60 * 60 + x % 60 = x := by omega
  have hsecond (x : Nat) : x / 1000000 * 1000000 + x / 1000 % 1000 * 1000 + x % 1000 = x := by
    omega
  have hyears := Nat.div_add_mod' d.seconds 31557600
  have hmonths := Nat.div_add_mod' (d.seconds % 31557600) 2630016
  have hdays := Nat.div_add_mod' (d.seconds % 31557600 % 2630016) 86400
  rw [← d.seconds_add_subsecond]
  simp only [amounts, Amount.worth_cons, Amount.worth_nil, Amount.nanos, long]
  unfold nanosPerYear nanosPerMonth nanosPerDay nanosPerHour nanosPerMinute
  generalize nanosPerSecond = scale
  linear_combination scale * (hyears + hmonths + hdays +
    hday (d.seconds % 31557600 % 2630016 % 86400)) + hsecond d.subsecond

theorem seconds_lt (d : Duration) : d.seconds < wordLimit := by
  have h := d.bound
  simp only [seconds, durationLimit, wordLimit, nanosPerSecond, UInt64.size] at *
  omega

theorem subsecond_lt (d : Duration) : d.subsecond < nanosPerSecond := Nat.mod_lt _ (by decide)

section

variable {name : String} {unit count : Nat}

theorem readable_large (hname : Names name unit)
    (hlarge : nanosPerSecond ≤ unit ∧ nanosPerSecond ∣ unit) (hcount : count < wordLimit) :
    Amount.Readable ⟨count, unit, name⟩ :=
  ⟨⟨hname, hcount⟩, fun _ => hlarge.2, fun h => absurd hlarge.1 (Nat.not_le_of_lt h)⟩

theorem readable_small (hname : Names name unit) (hsmall : unit < nanosPerSecond)
    (hcount : count < wordLimit) (hworth : count * unit < nanosPerSecond) :
    Amount.Readable ⟨count, unit, name⟩ :=
  ⟨⟨hname, hcount⟩, fun h => absurd hsmall (Nat.not_lt_of_le h), fun _ => hworth⟩

theorem readable_long (hone : Names name unit)
    (hmany : Names (name ++ "s") unit)
    (hlarge : nanosPerSecond ≤ unit ∧ nanosPerSecond ∣ unit) (hcount : count < wordLimit) :
    (long name unit count).Readable := by
  unfold long
  split_ifs
  · exact readable_large hmany hlarge hcount
  · exact readable_large hone hlarge hcount

end

theorem readable_amounts (d : Duration) : ∀ a ∈ d.amounts, a.Readable := by
  have hs := d.seconds_lt
  have hn := d.subsecond_lt
  simp only [wordLimit, UInt64.size, nanosPerSecond] at hs hn
  have hword {n : Nat} (h : n < 2 ^ 64) : n < wordLimit := h
  have hpart {n : Nat} (h : n < 1000000000) : n < nanosPerSecond := h
  rw [amounts]
  refine List.forall_mem_cons.mpr ⟨?year, List.forall_mem_cons.mpr ⟨?month,
    List.forall_mem_cons.mpr ⟨?day, List.forall_mem_cons.mpr ⟨?hour, List.forall_mem_cons.mpr ⟨?minute,
    List.forall_mem_cons.mpr ⟨?second, List.forall_mem_cons.mpr ⟨?milli, List.forall_mem_cons.mpr ⟨?micro,
    List.forall_mem_singleton.mpr ?nano⟩⟩⟩⟩⟩⟩⟩⟩
  case year =>
    exact readable_long ⟨rfl, by decide, by decide⟩ ⟨rfl, by decide, by decide⟩
      ⟨by decide, by decide⟩ (hword (by omega))
  case month =>
    exact readable_long ⟨rfl, by decide, by decide⟩ ⟨rfl, by decide, by decide⟩
      ⟨by decide, by decide⟩ (hword (by omega))
  case day =>
    exact readable_long ⟨rfl, by decide, by decide⟩ ⟨rfl, by decide, by decide⟩
      ⟨by decide, by decide⟩ (hword (by omega))
  case hour =>
    exact readable_large ⟨rfl, by decide, by decide⟩ ⟨by decide, by decide⟩ (hword (by omega))
  case minute =>
    exact readable_large ⟨rfl, by decide, by decide⟩ ⟨by decide, by decide⟩ (hword (by omega))
  case second =>
    exact readable_large ⟨rfl, by decide, by decide⟩ ⟨by decide, by decide⟩ (hword (by omega))
  case milli =>
    exact readable_small ⟨rfl, by decide, by decide⟩ (by decide) (hword (by omega)) (hpart (by omega))
  case micro =>
    exact readable_small ⟨rfl, by decide, by decide⟩ (by decide) (hword (by omega)) (hpart (by omega))
  case nano =>
    exact readable_small ⟨rfl, by decide, by decide⟩ (by decide) (hword (by omega)) (hpart (by omega))

def written (d : Duration) : List Amount := d.amounts.filter (0 < ·.count)

theorem readable_written (d : Duration) : ∀ a ∈ d.written, a.Readable := fun a ha =>
  d.readable_amounts a (List.mem_of_mem_filter ha)

theorem worth_filter (as : List Amount) :
    Amount.worth (as.filter (0 < ·.count)) = Amount.worth as := by
  induction as with
  | nil => rfl
  | cons a as ih =>
    rw [List.filter_cons, Amount.worth_cons]
    split_ifs with h
    · rw [Amount.worth_cons, ih]
    · have hzero : a.count = 0 := by simpa using h
      rw [ih, Amount.nanos, hzero, Nat.zero_mul, Nat.zero_add]

theorem worth_written (d : Duration) : Amount.worth d.written = d.nanos := by
  rw [written, worth_filter, worth_amounts]

theorem flatMap_items (as : List Amount) :
    as.flatMap Amount.items = (as.filter (0 < ·.count)).map Amount.shown := by
  induction as with
  | nil => rfl
  | cons a as ih =>
    rw [List.flatMap_cons, ih, List.filter_cons, Amount.items, item]
    by_cases h : a.count = 0
    · simp [h]
    · simp [h, Nat.pos_of_ne_zero h, Amount.shown]

theorem intercalate_space (texts : List (List Char)) (h : texts ≠ []) :
    ' ' :: [' '].intercalate texts = texts.flatMap (' ' :: ·) := by
  induction texts with
  | nil => exact absurd rfl h
  | cons text texts ih =>
    cases texts with
    | nil => simp
    | cons next rest =>
      rw [List.intercalate_cons_cons, List.flatMap_cons, ← ih (List.cons_ne_nil _ _)]
      simp

theorem written_ne_nil {d : Duration} (h : d.nanos ≠ 0) : d.written ≠ [] := by
  intro hnil
  have hworth := d.worth_written
  rw [hnil] at hworth
  exact h hworth.symm

theorem toList_shown (a : Amount) : a.shown.toList = a.text := by
  simp [Amount.shown, Amount.text]

theorem toList_line {as : List Amount} (h : as ≠ []) :
    ' ' :: (Amount.line as).toList = Amount.row as := by
  have hne : as.map Amount.text ≠ [] := by simpa using h
  have htexts : (as.map Amount.shown).map String.toList = as.map Amount.text := by
    rw [List.map_map]
    exact List.map_congr_left fun a _ => toList_shown a
  rw [Amount.line, String.toList_intercalate, htexts]
  change ' ' :: [' '].intercalate _ = _
  rw [intercalate_space _ hne, Amount.row, List.flatMap_map]

/-- What is documented of a spelling. A duration is written as its years of 31557600 s, months of
2630016 s, days, and so on down to nanoseconds, as far as they are not zero. Amounts in known units
are read as their sum in checked 64-bit arithmetic. -/
structure Spelling.Documented (spelling : Spelling) : Prop where
  write_zero : spelling.write zero = "0s"
  write_nonzero : ∀ d, d.nanos ≠ 0 → spelling.write d = Amount.line d.written
  read_line : ∀ as d, as ≠ [] → (∀ a ∈ as, a.Known) → Amount.total zero as = .ok d →
    spelling.read (Amount.line as) = .ok d

/-- Every duration is read as the one that it was written from. -/
theorem Spelling.Documented.read_write {spelling : Spelling} (h : spelling.Documented)
    (d : Duration) : spelling.read (spelling.write d) = .ok d := by
  by_cases hzero : d.nanos = 0
  case pos =>
    obtain rfl : d = zero := Duration.ext hzero
    have hknown : Amount.Known ⟨0, nanosPerSecond, "s"⟩ :=
      ⟨⟨rfl, by decide, by decide⟩, by decide⟩
    rw [h.write_zero]
    exact h.read_line [⟨0, nanosPerSecond, "s"⟩] zero (List.cons_ne_nil _ _)
      (List.forall_mem_singleton.mpr hknown) rfl
  case neg =>
    have hworth : zero.nanos + Amount.worth d.written = d.nanos := by
      rw [worth_written]
      exact Nat.zero_add _
    have hsum : zero.nanos + Amount.worth d.written < durationLimit := hworth ▸ d.bound
    rw [h.write_nonzero d hzero]
    refine h.read_line d.written d (written_ne_nil hzero)
      (fun a ha => (d.readable_written a ha).toKnown) ?_
    rw [total_eq d.readable_written hsum]
    exact congrArg Except.ok (Duration.ext hworth)

theorem toHuman_eq_line {d : Duration} (h : d.nanos ≠ 0) : d.toHuman = Amount.line d.written := by
  rw [toHuman, if_neg h, humanItems_eq, flatMap_items]
  rfl

theorem exists_letter {as : List Amount} (h : as ≠ []) (hknown : ∀ a ∈ as, a.Known) :
    ∃ c ∈ (Amount.line as).toList, isUnitLetter c = true := by
  obtain ⟨a, rest, rfl⟩ := List.exists_cons_of_ne_nil h
  have ha := hknown a List.mem_cons_self
  obtain ⟨c, cs, hname⟩ := List.exists_cons_of_ne_nil ha.nonempty
  have hletter := ha.isUnitLetter c (hname ▸ List.mem_cons_self)
  have hmem : c ∈ ' ' :: (Amount.line (a :: rest)).toList := by
    rw [toList_line h, Amount.row_cons, Amount.text, hname]
    simp
  rcases List.mem_cons.mp hmem with rfl | hmem
  · exact absurd hletter (by decide)
  · exact ⟨c, hmem, hletter⟩

theorem length_le_row (as : List Amount) : 2 * as.length ≤ (Amount.row as).length := by
  induction as with
  | nil => exact Nat.le_refl _
  | cons a as ih =>
    have hdigits := @Nat.length_toDigits_pos 10 a.count
    rw [Amount.row_cons, Amount.text]
    simp only [List.length_cons, List.length_append]
    omega

theorem quantities_space (total fuel : Nat) (sum : Duration) (cs : List Char) :
    quantities total (fuel + 1) sum (' ' :: cs) = quantities total (fuel + 1) sum cs := by
  rw [quantities, quantities, startNumber_space]

theorem ofHuman_line {as : List Amount} (h : as ≠ []) (hknown : ∀ a ∈ as, a.Known) {d : Duration}
    (hsum : Amount.total zero as = .ok d) : ofHuman (Amount.line as) = .ok d := by
  have hrow := toList_line h
  obtain ⟨c, hmem, hletter⟩ := exists_letter h hknown
  have hlone : Amount.line as ≠ "0" := by
    intro htext
    obtain rfl : c = '0' := by simpa [htext] using hmem
    exact absurd hletter (by decide)
  have hblank : ¬(Amount.line as).toList.all Text.isBlank = true := by
    intro hall
    have hc := List.all_eq_true.mp hall c hmem
    rw [not_isBlank_of_isUnitLetter hletter] at hc
    cases hc
  have hfuel : as.length < (Amount.line as).length + 1 := by
    have hlength := length_le_row as
    have hpos := List.length_pos_of_ne_nil h
    rw [← hrow, List.length_cons, String.length_toList] at hlength
    omega
  have hread := quantities_row hknown (Amount.line as).utf8ByteSize hfuel hsum
  rw [← hrow, quantities_space] at hread
  rw [ofHuman, if_neg hlone, if_neg hblank, hread]

theorem human_documented : Spelling.human.Documented where
  write_zero := by decide
  write_nonzero _ h := toHuman_eq_line h
  read_line as d hne hknown hsum := by
    change (ofHuman (Amount.line as)).mapError HumanError.message = .ok d
    rw [ofHuman_line hne hknown hsum]
    rfl

example : greatest.toHuman =
    "584542046090years 7months 15days 17h 5m 3s 999ms 999us 999ns" := by decide +kernel

end Duration
end FlowObserver
