import FlowObserver.Proofs.Yaml.Lines

/-!
# Tokens of written YAML

A mapping in block style is cut into the tokens of its entries. Between two entries, or two items of
a sequence, the lexer has no possible key in mind and stands at the column of the next line, where
all deeper collections have been closed.
-/

namespace FlowObserver
namespace Yaml

/-- What can be said of the lexer outside of flow collections, when nothing read may become a key. -/
structure Lexer.At (x : Lexer) (kinds : List TokenKind) (indents : List Nat) (allowed : Bool)
    (rest : List Char) : Prop where
  kinds : x.tokens.toList.map (·.kind) = kinds
  indents : x.indents = indents
  keys : x.keys = [none]
  allowed : x.simpleKeyAllowed = allowed
  rest : x.cursor.rest = rest

namespace Lexer

/-- Everything before the next token: the gap is skipped, and what is indented more is closed. -/
def settle (x : Lexer) : Scanned Lexer := do
  let x ← (skipGap (x.cursor.rest.length + 1) x).dropStaleKeys
  return x.unroll (some x.mark.column)

theorem step_eq (x : Lexer) : x.step = x.settle >>= token := by
  rw [step, settle]
  cases (skipGap (x.cursor.rest.length + 1) x).dropStaleKeys <;> rfl

/-- The next token begins a line, at a column from which on nothing deeper is open. -/
def Arrives (x : Lexer) (kinds : List TokenKind) (indents : List Nat) (content : List Char)
    (column : Nat) : Prop :=
  content.length ≤ x.cursor.rest.length ∧
    ∃ y, x.settle = .ok y ∧ y.At kinds indents true content ∧ y.mark.column = column

end Lexer

/-- A text that begins with neither a gap nor a comment. -/
def Begins (content : List Char) : Prop := content.head?.all (fun c => isMark c && c ≠ '#') = true

theorem Begins.head {content : List Char} (h : Begins content) :
    content.head?.all isMark = true ∧ content.head? ≠ some '#' := by
  cases content with
  | nil => simp
  | cons c rest => simpa [Begins] using h

theorem Cursor.skipWhile_spaces {p : Char → Bool} (hspace : p ' ' = true) (n : Nat)
    {rest : List Char} (hrest : rest.takeWhile (fun x => p x && !isBreak x) = []) (m : Mark) :
    (⟨List.replicate n ' ' ++ rest, m⟩ : Cursor).skipWhile p = ⟨rest, m.ahead n⟩ := by
  have htaken : (List.replicate n ' ' ++ rest).takeWhile (fun x => p x && !isBreak x) =
      List.replicate n ' ' := by
    have hbreak : isBreak ' ' = false := by decide
    rw [List.takeWhile_append_of_pos, hrest, List.append_nil]
    intro c hc
    rw [List.eq_of_mem_replicate hc, hspace, hbreak]
    rfl
  simp [Cursor.skipWhile, Cursor.takeWhile, htaken, Mark.ahead]

namespace Lexer

variable {x : Lexer}

theorem not_inFlow {key : Option SimpleKey} (h : x.keys = [key]) : x.inFlow = false := by
  simp [inFlow, h]

theorem skipGap_spaces (n : Nat) {content : List Char} (hcontent : Begins content) (m : Mark)
    (fuel : Nat) :
    skipGap (fuel + 1) { x with cursor := ⟨List.replicate n ' ' ++ content, m⟩ } =
      { x with cursor := ⟨content, m.ahead n⟩ } := by
  have hhead := hcontent.head
  have hbreak : content.head?.any isBreak = false := by
    cases content with
    | nil => rfl
    | cons c rest => exact ((isMark_iff c).mp hhead.1).2
  have hskip (tabs : Bool) : (⟨List.replicate n ' ' ++ content, m⟩ : Cursor).skipWhile
      (fun a => a = ' ' || (tabs && a = '\t')) = ⟨content, m.ahead n⟩ := by
    refine Cursor.skipWhile_spaces rfl n ?_ m
    cases content with
    | nil => rfl
    | cons c rest =>
      have hc : isBlank c = false := ((isMark_iff c).mp hhead.1).1
      simp only [isBlank, Bool.or_eq_false_iff, decide_eq_false_iff_not] at hc
      exact List.takeWhile_cons_of_neg (by simp [hc])
  rw [skipGap]
  simp only [hskip, Cursor.skipComment, Cursor.is, Cursor.peek, hhead.2, decide_false,
    Bool.false_eq_true, if_false, hbreak]

theorem skipGap_line (hflow : x.inFlow = false) (column : Nat) {content : List Char}
    (hcontent : Begins content) (m : Mark) (fuel : Nat) :
    skipGap (fuel + 2) { x with
        cursor := ⟨'\n' :: (List.replicate column ' ' ++ content), m⟩ } =
      { x with
        cursor := ⟨content, ⟨m.index + 1 + column, m.line + 1, column⟩⟩
        simpleKeyAllowed := true } := by
  have hskip (tabs : Bool) : (⟨'\n' :: (List.replicate column ' ' ++ content), m⟩ :
      Cursor).skipWhile (fun a => a = ' ' || (tabs && a = '\t')) =
      ⟨'\n' :: (List.replicate column ' ' ++ content), m⟩ :=
    Cursor.skipWhile_spaces rfl 0 (List.takeWhile_cons_of_neg (by simp)) m
  have hspaces := skipGap_spaces (x := { x with simpleKeyAllowed := true }) column hcontent
    ⟨m.index + 1, m.line + 1, 0⟩ fuel
  have hflow' (c : Cursor) : ({ x with cursor := c } : Lexer).inFlow = false := hflow
  have hcomment : (⟨'\n' :: (List.replicate column ' ' ++ content), m⟩ : Cursor).skipComment =
      ⟨'\n' :: (List.replicate column ' ' ++ content), m⟩ := rfl
  have hbreak : (⟨'\n' :: (List.replicate column ' ' ++ content), m⟩ : Cursor).skipBreak =
      ⟨List.replicate column ' ' ++ content, ⟨m.index + 1, m.line + 1, 0⟩⟩ := rfl
  have hpeek : (some '\n').any isBreak = true := rfl
  rw [skipGap]
  simp only [hskip, hcomment, Cursor.peek, List.head?_cons, hpeek, hflow', hbreak, if_true,
    Bool.false_eq_true, if_false]
  simpa only [Mark.ahead, Nat.zero_add, allowKey] using hspaces

/-- The ends of the collections that are indented more than a column. -/
def closed (column : Nat) (indents : List Nat) : List TokenKind :=
  (indents.takeWhile (column < ·)).map fun _ => .blockEnd

theorem closeBlocks_eq (mark : Mark) (column : Nat) (indents : List Nat) (tokens : Array Token) :
    ∃ more : List Token, closeBlocks mark (some column) indents tokens =
        (indents.dropWhile (column < ·), tokens ++ more.toArray) ∧
      more.map (·.kind) = closed column indents := by
  induction indents generalizing tokens with
  | nil => exact ⟨[], by simp [closeBlocks], rfl⟩
  | cons indent rest ih =>
    by_cases h : column < indent
    · obtain ⟨more, hclose, hkinds⟩ := ih (tokens.push ⟨.blockEnd, mark, mark⟩)
      refine ⟨⟨.blockEnd, mark, mark⟩ :: more, ?_, ?_⟩
      · rw [closeBlocks, if_pos (by simpa using h), hclose]
        simp [h]
      · rw [List.map_cons, hkinds]
        simp [closed, h]
    · refine ⟨[], ?_, ?_⟩
      · rw [closeBlocks, if_neg (by simpa using h)]
        simp [h]
      · simp [closed, h]

/-- A key that was possible on an earlier line is none any more. -/
theorem dropStaleKeys_eq {key : Option SimpleKey} (hkeys : x.keys = [key])
    (hstale : ∀ k ∈ key, k.required = false ∧ k.mark.line < x.mark.line) :
    x.dropStaleKeys = .ok { x with keys := [none] } := by
  cases key with
  | none =>
    simp only [dropStaleKeys, hkeys]
    rfl
  | some k =>
    obtain ⟨hrequired, hline⟩ := hstale k rfl
    have hk : x.isStale k = true := by simp [isStale, hline]
    simp only [dropStaleKeys, hkeys, List.mapM_cons, hk, hrequired]
    rfl

/-- Behind the gap nothing deeper stays open. -/
theorem arrives_of_skipGap {content : List Char} {m : Mark} {key : Option SimpleKey}
    (hskip : skipGap (x.cursor.rest.length + 1) x =
      { x with cursor := ⟨content, m⟩, simpleKeyAllowed := true })
    (hkeys : x.keys = [key]) (hstale : ∀ k ∈ key, k.required = false ∧ k.mark.line < m.line)
    (hlength : content.length ≤ x.cursor.rest.length) :
    x.Arrives (x.tokens.toList.map (·.kind) ++ closed m.column x.indents)
      (x.indents.dropWhile (m.column < ·)) content m.column := by
  obtain ⟨more, hclose, hkinds⟩ := closeBlocks_eq m m.column x.indents x.tokens
  refine ⟨hlength, { x with
    cursor := ⟨content, m⟩
    keys := [none]
    simpleKeyAllowed := true
    indents := x.indents.dropWhile (m.column < ·)
    tokens := x.tokens ++ more.toArray }, ?_, ⟨?_, rfl, rfl, rfl, rfl⟩, rfl⟩
  · rw [settle, hskip, dropStaleKeys_eq (x := { x with
      cursor := ⟨content, m⟩, simpleKeyAllowed := true }) hkeys hstale]
    change Except.ok (unroll _ _) = _
    simp only [unroll, mark, hclose]
    rfl
  · simp [hkinds]

theorem mapM_eq_self {α : Type} {f : α → Scanned α} {l : List α} (h : ∀ a ∈ l, f a = .ok a) :
    l.mapM f = .ok l := by
  induction l with
  | nil => rfl
  | cons a l ih =>
    obtain ⟨ha, hl⟩ := List.forall_mem_cons.mp h
    rw [List.mapM_cons, ha, ih hl]
    rfl

theorem dropStaleKeys_fresh (h : ∀ k, some k ∈ x.keys → x.isStale k = false) :
    x.dropStaleKeys = .ok x := by
  rw [dropStaleKeys, mapM_eq_self]
  · rfl
  · rintro (_ | k) hk
    · rfl
    · simp only [h k hk]
      rfl

/-- On a line nothing is closed. -/
theorem settle_fresh {n : Nat} {content : List Char} (hcontent : Begins content) {m : Mark}
    (hkeys : ∀ k, some k ∈ x.keys → k.mark.line = m.line ∧ m.index + n ≤ k.mark.index + maxKeyLength)
    (hcolumn : x.inFlow = true ∨ ∀ i ∈ x.indents.head?, i ≤ m.column + n) :
    settle { x with cursor := ⟨List.replicate n ' ' ++ content, m⟩ } =
      .ok { x with cursor := ⟨content, m.ahead n⟩ } := by
  have hfresh : ∀ k, some k ∈ x.keys →
      isStale { x with cursor := ⟨content, m.ahead n⟩ } k = false := by
    intro k hk
    obtain ⟨hline, hindex⟩ := hkeys k hk
    exact Bool.or_eq_false_iff.mpr ⟨decide_eq_false (Nat.not_lt.mpr hline.ge),
      decide_eq_false (Nat.not_lt.mpr hindex)⟩
  have hunroll : unroll { x with cursor := ⟨content, m.ahead n⟩ } (some (m.column + n)) =
      { x with cursor := ⟨content, m.ahead n⟩ } := by
    rw [unroll]
    split
    · rfl
    · rename_i hflow
      rcases hcolumn with h | h
      · exact absurd h hflow
      · cases hindents : x.indents with
        | nil => simp [closeBlocks]
        | cons i rest =>
          have hi : ¬m.column + n < i := Nat.not_lt.mpr (h i (by simp [hindents]))
          simp [closeBlocks, hi]
  rw [settle, skipGap_spaces n hcontent, dropStaleKeys_fresh hfresh]
  exact congrArg Except.ok hunroll

/-- The first character of a plain text stands for nothing, and neither does it with the next one. -/
theorem lead_of_plain {c : Char} {rest : List Char} (h : Plain none (c :: rest)) :
    isLeadIndicator c = false ∧ (c = '?' ∨ c = ':' ∨ c = '-' → isGap rest.head? = false) := by
  have hquiet := h.quiet
  rw [hasIndicator, isIndicator, Bool.or_eq_false_iff, Bool.or_eq_false_iff] at hquiet
  refine ⟨hquiet.1.1, ?_⟩
  rintro (rfl | rfl | rfl) <;> simpa using hquiet.1.2

theorem startsPlain_of_lead {c : Char} {next : Option Char} (hmark : isMark c = true)
    (hlead : isLeadIndicator c = false) (hnext : c = '?' ∨ c = ':' ∨ c = '-' → isGap next = false) :
    startsPlain false c next = true := by
  rw [startsPlain]
  split_ifs with hdash hcolon
  · have hgap := hnext (.inr (.inr hdash))
    cases next with
    | none => rfl
    | some d =>
      rw [isGap_some, Bool.not_eq_false'] at hgap
      simp [((isMark_iff d).mp hgap).1]
  · have hor : c = '?' ∨ c = ':' := by simpa using hcolon
    simp [hnext (hor.imp_right .inl)]
  · have hall : ∀ a ∈ ",[]\x7b\x7d#&*!|>'\"%@\x60".toList, isLeadIndicator a = true :=
      List.all_eq_true.mp (by decide)
    have hout : c ∉ ",[]\x7b\x7d#&*!|>'\"%@\x60".toList := by
      intro hmem
      rw [hall c hmem] at hlead
      contradiction
    rw [isGap_some, hmark, List.contains_eq_mem, decide_eq_false hout]
    rfl

/-- A plain scalar begins, as nothing in it stands for syntax. -/
theorem token_plain {key : Option SimpleKey} (hkeys : x.keys = [key]) {cs tail : List Char}
    (hplain : Plain none cs) (hrest : x.cursor.rest = cs ++ tail)
    (hdocument : x.cursor.atAnyDocumentMark = false) : x.token = x.plainScalar := by
  obtain ⟨c, rest, rfl⟩ := List.exists_cons_of_ne_nil hplain.ne_nil
  obtain ⟨hdashes, hdots⟩ : x.cursor.atDocumentMark '-' = false ∧
      x.cursor.atDocumentMark '.' = false := by simpa [Cursor.atAnyDocumentMark] using hdocument
  obtain ⟨hlead, hgap⟩ := lead_of_plain hplain
  have hnext : c = '?' ∨ c = ':' ∨ c = '-' → isGap (x.cursor.peekAt 1) = false := by
    intro h
    have hhead := hgap h
    rw [Cursor.peekAt, hrest]
    cases rest with
    | nil => exact absurd hhead (by decide)
    | cons d rest => exact hhead
  have hstarts := startsPlain_of_lead hplain.starts hlead hnext
  have hword {a : Char} (ha : a = '?' ∨ a = ':' ∨ a = '-') :
      (decide (c = a) && isGap (x.cursor.peekAt 1)) = false := by
    by_cases h : c = a
    · rw [hnext (h ▸ ha), Bool.and_false]
    · rw [decide_eq_false h, Bool.false_and]
  have hne {a : Char} (ha : isLeadIndicator a = true) : c ≠ a := by
    rintro rfl
    rw [hlead] at ha
    contradiction
  rw [token, hrest]
  simp only [List.cons_append, not_inFlow hkeys, hdashes, hdots, hstarts, Bool.false_or,
    hword (a := '-') (by simp), hword (a := '?') (by simp), hword (a := ':') (by simp),
    hne (a := '%') rfl, hne (a := '[') rfl, hne (a := '\x7b') rfl, hne (a := ']') rfl,
    hne (a := '\x7d') rfl, hne (a := ',') rfl, hne (a := '*') rfl, hne (a := '&') rfl,
    hne (a := '!') rfl, hne (a := '|') rfl, hne (a := '>') rfl, hne (a := '\'') rfl,
    hne (a := '"') rfl, Bool.false_eq_true, if_false, if_true, decide_false, Bool.and_false,
    Bool.false_and]

theorem atDocumentMark_of_head {c : Cursor} {a : Char} (h : c.rest.head? ≠ some a) :
    c.atDocumentMark a = false := by
  cases hrest : c.rest with
  | nil => simp [Cursor.atDocumentMark, hrest]
  | cons b rest =>
    have hb : b ≠ a := by simpa [hrest] using h
    simp [Cursor.atDocumentMark, hrest, hb]

section Heads

variable {rest : List Char}

theorem token_quote (hrest : x.cursor.rest = '\'' :: rest) : x.token = x.quotedScalar true := by
  have hdocument (a : Char) (ha : a ≠ '\'') : x.cursor.atDocumentMark a = false :=
    atDocumentMark_of_head (by simpa [hrest] using ha.symm)
  simp [token, hrest, hdocument]

theorem token_colon (hrest : x.cursor.rest = ':' :: rest) (hgap : isGap rest.head? = true) :
    x.token = x.value := by
  have hdocument (a : Char) (ha : a ≠ ':') : x.cursor.atDocumentMark a = false :=
    atDocumentMark_of_head (by simpa [hrest] using ha.symm)
  have hnext : isGap (x.cursor.peekAt 1) = true := by
    rw [Cursor.peekAt, hrest]
    simpa [List.head?_eq_getElem?] using hgap
  simp [token, hrest, hdocument, hnext]

theorem token_dash (hrest : x.cursor.rest = '-' :: ' ' :: rest) : x.token = x.blockEntry := by
  have hdots : x.cursor.atDocumentMark '.' = false :=
    atDocumentMark_of_head (by simp [hrest])
  have hdashes : x.cursor.atDocumentMark '-' = false := by
    simp [Cursor.atDocumentMark, hrest]
  have hnext : isGap (x.cursor.peekAt 1) = true := by
    rw [Cursor.peekAt, hrest]
    rfl
  simp [token, hrest, hdashes, hdots, hnext]

theorem token_bracket (hrest : x.cursor.rest = '[' :: rest) :
    x.token = x.openFlow .flowSequenceStart := by
  have hdocument (a : Char) (ha : a ≠ '[') : x.cursor.atDocumentMark a = false :=
    atDocumentMark_of_head (by simpa [hrest] using ha.symm)
  simp [token, hrest, hdocument]

theorem token_closingBracket (hrest : x.cursor.rest = ']' :: rest) :
    x.token = x.closeFlow .flowSequenceEnd := by
  have hdocument (a : Char) (ha : a ≠ ']') : x.cursor.atDocumentMark a = false :=
    atDocumentMark_of_head (by simpa [hrest] using ha.symm)
  simp [token, hrest, hdocument]

end Heads

def Moves (x y : Lexer) : Prop :=
  ∃ n, n + y.cursor.rest.length ≤ x.cursor.rest.length ∧
    ∀ fuel, Lexer.run (fuel + n) x = Lexer.run fuel y

theorem Moves.trans {x y z : Lexer} (hxy : x.Moves y) (hyz : y.Moves z) : x.Moves z := by
  obtain ⟨m, hm, hx⟩ := hxy
  obtain ⟨n, hn, hy⟩ := hyz
  exact ⟨n + m, by omega, fun fuel => by rw [← Nat.add_assoc, hx, hy]⟩

theorem Moves.of_step {x y : Lexer} (hstep : x.step = .ok y) (hdone : y.isDone = false)
    (hshort : y.cursor.rest.length < x.cursor.rest.length) : x.Moves y := by
  refine ⟨1, by omega, fun fuel => ?_⟩
  rw [Lexer.run, hstep]
  simp [hdone]

/-- Where a settled state gives a token, the state before it does. -/
theorem step_of_settle {y : Lexer} (h : x.settle = .ok y) : x.step = y.token := by
  rw [step_eq, h]
  rfl

theorem not_isDone {kinds : List TokenKind} {indents : List Nat} {allowed : Bool}
    {rest : List Char} (h : x.At kinds indents allowed rest)
    (hkinds : kinds.getLast? ≠ some .streamEnd) : x.isDone = false := by
  rw [← h.kinds, List.getLast?_map, Array.getLast?_toList] at hkinds
  rw [isDone]
  cases hback : x.tokens.back? with
  | none => rfl
  | some t => simpa [hback] using hkinds

/-- A token at the start of a line may become a key. -/
theorem saveKey_allowed (c : Cursor) (tokens : Array Token) (indents : List Nat) :
    saveKey ⟨c, tokens, indents, [none], true⟩ =
      .ok ⟨c, tokens, indents, [some ⟨indents.head? = some c.mark.column, tokens.size, c.mark⟩],
        true⟩ := rfl

theorem toList_insertAt (n : Nat) (kind : TokenKind) (m : Mark) :
    (x.insertAt n kind m).tokens.toList =
      x.tokens.toList.take n ++ ⟨kind, m, m⟩ :: x.tokens.toList.drop n := by
  simp [insertAt]

section Key

variable {cs rest : List Char} {m : Mark} {tokens : Array Token} {indents : List Nat}

theorem blockColumn_le (hcolumn : ∀ i ∈ indents.head?, i ≤ m.column) :
    (indents.head?.map (· + 1)).getD 0 ≤ m.column + 1 := by
  cases indents with
  | nil => exact Nat.zero_le _
  | cons i rest => simpa using hcolumn i (by simp)

theorem plainScalar_key (hplain : Plain none cs) (hrest : isGap rest.head? = true)
    (hdocument : (⟨cs ++ ':' :: rest, m⟩ : Cursor).atAnyDocumentMark = false)
    (hcolumn : ∀ i ∈ indents.head?, i ≤ m.column) :
    plainScalar ⟨⟨cs ++ ':' :: rest, m⟩, tokens, indents, [none], true⟩ =
      .ok ⟨⟨':' :: rest, m.ahead cs.length⟩,
        tokens.push ⟨.scalar (String.ofList cs) .plain, m, m.ahead cs.length⟩, indents,
        [some ⟨indents.head? = some m.column, tokens.size, m⟩], false⟩ := by
  have hscan := scanPlain_colon hplain (blockColumn_le hcolumn) hrest hdocument
  rw [plainScalar, saveKey_allowed]
  change (do
    let s ← scanPlain false ((indents.head?.map (· + 1)).getD 0) ⟨cs ++ ':' :: rest, m⟩
    pure _ : Scanned Lexer) = _
  rw [hscan]
  rfl

/-- The columns of the open collections and the token that opens one, when a key stands at a
column. -/
def openedAt (column : Nat) (indents : List Nat) : List TokenKind × List Nat :=
  if indents.head?.all (· < column) then ([.blockMappingStart], column :: indents)
  else ([], indents)

/-- A colon makes the possible key one. -/
theorem value_key {c : Cursor} {t : Token} {required : Bool} :
    ∃ z, value ⟨c, tokens.push t, indents, [some ⟨required, tokens.size, m⟩], false⟩ = .ok z ∧
      z.At (tokens.toList.map (·.kind) ++ (openedAt m.column indents).1 ++ [.key, t.kind, .value])
        (openedAt m.column indents).2 false c.skip.rest ∧ z.mark = c.skip.mark := by
  let x : Lexer := ⟨c, tokens.push t, indents, [some ⟨required, tokens.size, m⟩], false⟩
  let y := x.insertAt tokens.size .key m
  let z := if y.deeper m.column then
      { y.insertAt tokens.size .blockMappingStart m with indents := m.column :: y.indents }
    else y
  have hvalue : x.value = .ok (({ z with keys := [none] }.allowKey false).pushHere .value 1) := rfl
  have hdeeper : y.deeper m.column = indents.head?.all (· < m.column) := rfl
  have hz : z.cursor = c ∧ z.indents = (openedAt m.column indents).2 ∧
      z.tokens.toList.map (·.kind) =
        tokens.toList.map (·.kind) ++ (openedAt m.column indents).1 ++ [.key, t.kind] := by
    have hy : y.tokens.toList = tokens.toList ++ [⟨.key, m, m⟩, t] := by
      simp [y, x, toList_insertAt]
    by_cases h : indents.head?.all (· < m.column) = true
    · rw [openedAt, if_pos h]
      have hz_eq : z = { y.insertAt tokens.size .blockMappingStart m with
          indents := m.column :: y.indents } := if_pos (hdeeper.trans h)
      rw [hz_eq]
      refine ⟨rfl, rfl, ?_⟩
      change ((y.insertAt tokens.size .blockMappingStart m).tokens.toList.map (·.kind)) = _
      simp [toList_insertAt, hy]
    · rw [openedAt, if_neg h]
      have hz_eq : z = y := if_neg (by rw [hdeeper]; exact h)
      rw [hz_eq]
      exact ⟨rfl, rfl, by simp [hy]⟩
  obtain ⟨hcursor, hindents, hkinds⟩ := hz
  refine ⟨_, hvalue, ⟨?_, hindents, rfl, rfl, ?_⟩, ?_⟩
  · change (z.tokens.push _).toList.map (·.kind) = _
    simp [hkinds]
  · change (z.cursor.skipMany 1).rest = _
    rw [hcursor]
    rfl
  · change (z.cursor.skipMany 1).mark = _
    rw [hcursor]
    rfl

theorem atDocumentMark_of_not_prefix {a : Char} (hne : a ≠ ':')
    (h : [a, a, a].isPrefixOf cs = false) :
    (⟨cs ++ ':' :: rest, m⟩ : Cursor).atDocumentMark a = false := by
  have htake : (cs ++ ':' :: rest).take 3 ≠ [a, a, a] := by
    match cs with
    | [] => simpa using fun hcolon => absurd hcolon.symm hne
    | [b] => simpa using fun _ hcolon => absurd hcolon.symm hne
    | [b, c] => simpa using fun _ _ => hne.symm
    | b :: c :: d :: cs =>
      intro heq
      simp only [List.cons_append, List.take_succ_cons, List.take_zero, List.cons.injEq] at heq
      simp [heq.1, heq.2.1, heq.2.2.1] at h
  simp [Cursor.atDocumentMark, htake]

/-- A key with its colon, at the column of its mapping or to the right of it. -/
theorem moves_key {s : String} (hkey : IsKey s) (hrest : isGap rest.head? = true)
    {kinds : List TokenKind} {column : Nat}
    (hx : x.Arrives kinds indents (s.toList ++ ':' :: rest) column)
    (hcolumn : ∀ i ∈ indents.head?, i ≤ column) :
    ∃ z, x.Moves z ∧ z.At (kinds ++ (openedAt column indents).1 ++ [.key, .scalar s .plain, .value])
      (openedAt column indents).2 false rest ∧ column < z.mark.column := by
  obtain ⟨hplain, hdashes, hdots⟩ := Plain.of_allowsPlain hkey.nonempty hkey.plain
  obtain ⟨hlength, ⟨⟨_, m⟩, tokens, indents, _, _⟩, hsettle, ⟨hkinds, rfl, rfl, rfl, rfl⟩, rfl⟩ :=
    hx
  have hdocument : (⟨s.toList ++ ':' :: rest, m⟩ : Cursor).atAnyDocumentMark = false := by
    rw [Cursor.atAnyDocumentMark, atDocumentMark_of_not_prefix (by decide) hdashes,
      atDocumentMark_of_not_prefix (by decide) hdots, Bool.or_self]
  have hscalar := (step_of_settle hsettle).trans
    ((token_plain rfl hplain rfl hdocument).trans (plainScalar_key hplain hrest hdocument hcolumn))
  let t : Token := ⟨.scalar (String.ofList s.toList) .plain, m, m.ahead s.toList.length⟩
  let k : SimpleKey := ⟨indents.head? = some m.column, tokens.size, m⟩
  let y : Lexer :=
    ⟨⟨':' :: rest, m.ahead s.toList.length⟩, tokens.push t, indents, [some k], false⟩
  have hpos := List.length_pos_iff.mpr hkey.nonempty
  simp only [List.length_append, List.length_cons] at hlength
  have hy : x.Moves y := .of_step hscalar (by simp [y, t, isDone]) (by simp [y]; omega)
  have hfresh : y.settle = .ok y := by
    have hbegins : Begins (':' :: rest) := rfl
    refine settle_fresh (x := y) (n := 0) hbegins ?_ (.inr fun i hi => ?_)
    · intro k' hk'
      obtain rfl : k' = k := by simpa [y] using hk'
      exact ⟨rfl, Nat.add_le_add_left hkey.short _⟩
    · exact Nat.le_trans (hcolumn i hi) (Nat.le_add_right _ _)
  obtain ⟨z, hvalue, hz, hmark⟩ := @value_key m tokens indents y.cursor t k.required
  have hcolon := (step_of_settle hfresh).trans ((token_colon rfl hrest).trans hvalue)
  have hz' : z.At (kinds ++ (openedAt m.column indents).1 ++ [.key, .scalar s .plain, .value])
      (openedAt m.column indents).2 false rest := by
    have hskip : y.cursor.skip.rest = rest := rfl
    rw [← hkinds, ← hskip]
    simpa [t] using hz
  refine ⟨z, hy.trans (.of_step hcolon (not_isDone hz' (by simp)) ?_), hz', ?_⟩
  · rw [hz.rest]
    exact Nat.lt_succ_self _
  · change m.column < z.cursor.mark.column
    have hz_mark : z.cursor.mark = y.cursor.skip.mark := hmark
    simp only [hz_mark, y, Cursor.skip_cons, Mark.ahead]
    omega

end Key

section Lines

variable {content : List Char} (hcontent : Begins content) {column : Nat} {tokens : Array Token}
  {indents : List Nat} {key : Option SimpleKey}

include hcontent

theorem arrives_line {m : Mark} {allowed : Bool}
    (hkey : ∀ k ∈ key, k.required = false ∧ k.mark.line ≤ m.line) :
    Arrives ⟨⟨'\n' :: (List.replicate column ' ' ++ content), m⟩, tokens, indents, [key], allowed⟩
      (tokens.toList.map (·.kind) ++ closed column indents) (indents.dropWhile (column < ·)) content
      column := by
  let x : Lexer :=
    ⟨⟨'\n' :: (List.replicate column ' ' ++ content), m⟩, tokens, indents, [key], allowed⟩
  have hflow : x.inFlow = false := not_inFlow (x := x) rfl
  refine arrives_of_skipGap (x := x) (m := ⟨m.index + 1 + column, m.line + 1, column⟩)
    (skipGap_line hflow column hcontent m _) rfl (fun k hk => ?_) ?_
  · exact ⟨(hkey k hk).1, Nat.lt_succ_of_le (hkey k hk).2⟩
  · simp [x]; omega

theorem arrives_here {m : Mark} (hkey : ∀ k ∈ key, k.required = false ∧ k.mark.line < m.line) :
    Arrives ⟨⟨content, m⟩, tokens, indents, [key], true⟩
      (tokens.toList.map (·.kind) ++ closed m.column indents)
      (indents.dropWhile (m.column < ·)) content m.column := by
  let x : Lexer := ⟨⟨content, m⟩, tokens, indents, [key], true⟩
  exact arrives_of_skipGap (x := x) (m := m) (skipGap_spaces (x := x) 0 hcontent m _) rfl hkey
    (Nat.le_refl _)

end Lines

/-- To the right of the innermost collection no key is required. -/
theorem saveKey_right {c : Cursor} {tokens : Array Token} {i : Nat} {indents : List Nat}
    {allowed : Bool} (hcolumn : i < c.mark.column) :
    ∃ key, saveKey ⟨c, tokens, i :: indents, [none], allowed⟩ =
        .ok ⟨c, tokens, i :: indents, [key], allowed⟩ ∧
      ∀ k ∈ key, k.required = false ∧ k.mark = c.mark := by
  cases allowed with
  | false => exact ⟨none, rfl, by simp⟩
  | true =>
    refine ⟨_, saveKey_allowed c tokens (i :: indents), ?_⟩
    have hne : i ≠ c.mark.column := Nat.ne_of_lt hcolumn
    simp [hne]

theorem begins_of_shown {j : Json} {shown : List Char} {kind : TokenKind} (h : Shown j shown kind)
    (rest : List Char) : Begins (shown ++ rest) := by
  cases h with
  | @plain s _ hplain =>
    obtain ⟨c, cs, hcs⟩ := List.exists_cons_of_ne_nil hplain.ne_nil
    have hc : isMark c = true := by simpa [hcs] using hplain.starts
    have hcomment : c ≠ '#' := by simpa [hcs] using hplain.head?_ne rfl
    simp [Begins, hcs, hc, hcomment]
  | quoted => rfl

section Shown

variable {content : List Char} {column : Nat} {m : Mark} {i : Nat} (tokens : Array Token)
  (indents : List Nat) (allowed : Bool)

theorem step_spaced (hcontent : Begins content) (hright : i ≤ m.column + 1) :
    step ⟨⟨' ' :: content, m⟩, tokens, i :: indents, [none], allowed⟩ =
      token ⟨⟨content, m.ahead 1⟩, tokens, i :: indents, [none], allowed⟩ := by
  let x : Lexer := ⟨⟨' ' :: content, m⟩, tokens, i :: indents, [none], allowed⟩
  refine step_of_settle (settle_fresh (x := x) (n := 1) hcontent (by simp [x]) (.inr fun k hk => ?_))
  obtain rfl : k = i := by simpa [x] using hk.symm
  exact hright

/-- A plain scalar takes the end of its line and the indentation of the next one with it. -/
theorem plainScalar_line {cs : List Char} (hplain : Plain none cs)
    (hcontent : content.head?.all isMark = true) (hright : i < m.column) (hcolumn : column ≤ i)
    (hdocument : (⟨cs ++ '\n' :: (List.replicate column ' ' ++ content), m⟩ :
      Cursor).atAnyDocumentMark = false) :
    ∃ key, plainScalar ⟨⟨cs ++ '\n' :: (List.replicate column ' ' ++ content), m⟩, tokens,
        i :: indents, [none], allowed⟩ =
      .ok ⟨⟨content, ⟨m.index + cs.length + 1 + column, m.line + 1, column⟩⟩,
        tokens.push ⟨.scalar (String.ofList cs) .plain, m, m.ahead cs.length⟩, i :: indents, [key],
        true⟩ ∧
      ∀ k ∈ key, k.required = false ∧ k.mark = m := by
  obtain ⟨key, hsave, hkey⟩ := saveKey_right
    (c := ⟨cs ++ '\n' :: (List.replicate column ' ' ++ content), m⟩) hright
  have hscan := scanPlain_line hplain (Nat.succ_le_succ (Nat.le_of_lt hright))
    (Nat.lt_succ_of_le hcolumn) hcontent hdocument
  refine ⟨key, ?_, hkey⟩
  rw [plainScalar, hsave]
  change (do
    let s ← scanPlain false (i + 1) ⟨cs ++ '\n' :: (List.replicate column ' ' ++ content), m⟩
    pure _ : Scanned Lexer) = _
  rw [hscan]
  rfl

theorem quotedScalar_line {cs : List Char} (hunbroken : ∀ c ∈ cs, isBreak c = false)
    (hright : i < m.column) :
    ∃ key, quotedScalar ⟨⟨'\'' :: (doubleQuotes cs ++ '\'' :: '\n' :: content), m⟩, tokens,
        i :: indents, [none], allowed⟩ true =
      .ok ⟨⟨'\n' :: content, m.ahead ((doubleQuotes cs).length + 2)⟩,
        tokens.push ⟨.scalar (String.ofList cs) .quoted, m,
          m.ahead ((doubleQuotes cs).length + 2)⟩, i :: indents, [key], false⟩ ∧
      ∀ k ∈ key, k.required = false ∧ k.mark = m := by
  obtain ⟨key, hsave, hkey⟩ := saveKey_right
    (c := ⟨'\'' :: (doubleQuotes cs ++ '\'' :: '\n' :: content), m⟩) hright
  have hscan : scanQuoted true ⟨'\'' :: (doubleQuotes cs ++ '\'' :: '\n' :: content), m⟩ = _ :=
    scanQuoted_single hunbroken (by simp) m
  refine ⟨key, ?_, hkey⟩
  rw [quotedScalar, hsave]
  change (do
    let s ← scanQuoted true ⟨'\'' :: (doubleQuotes cs ++ '\'' :: '\n' :: content), m⟩
    pure _ : Scanned Lexer) = _
  rw [hscan]
  rfl

end Shown

/-- A value of one line, to the right of its mapping or sequence. -/
theorem moves_shown {j : Json} {shown : List Char} {kind : TokenKind} (h : Shown j shown kind)
    {content : List Char} (hcontent : Begins content) {column : Nat} {kinds : List TokenKind}
    {i : Nat} {indents : List Nat} {allowed : Bool}
    (hx : x.At kinds (i :: indents) allowed
      (' ' :: (shown ++ '\n' :: (List.replicate column ' ' ++ content))))
    (hright : i < x.mark.column) (hcolumn : column ≤ i) :
    ∃ z, x.Moves z ∧ z.Arrives (kinds ++ [kind] ++ closed column (i :: indents))
      ((i :: indents).dropWhile (column < ·)) content column := by
  obtain ⟨⟨_, m⟩, tokens, _, _, allowed⟩ := x
  obtain ⟨hkinds, rfl, rfl, rfl, rfl⟩ := hx
  have hnext : i < (m.ahead 1).column := Nat.lt_succ_of_lt hright
  have hstep := step_spaced tokens indents allowed
    (begins_of_shown h ('\n' :: (List.replicate column ' ' ++ content))) (Nat.le_of_lt hnext)
  cases h with
  | @plain s _ hplain hvalue =>
    have hdocument : (⟨s.toList ++ '\n' :: (List.replicate column ' ' ++ content), m.ahead 1⟩ :
        Cursor).atAnyDocumentMark = false :=
      Cursor.atAnyDocumentMark_of_column (Nat.succ_ne_zero m.column)
    obtain ⟨key, hscalar, hkey⟩ :=
      plainScalar_line tokens indents allowed hplain hcontent.head.1 hnext hcolumn hdocument
    rw [token_plain rfl hplain rfl hdocument, hscalar] at hstep
    refine ⟨_, .of_step hstep (by simp [isDone]) (by simp; omega), ?_⟩
    have hpush : (tokens.push ⟨.scalar (String.ofList s.toList) .plain, m.ahead 1,
        (m.ahead 1).ahead s.toList.length⟩).toList.map (·.kind) = kinds ++ [.scalar s .plain] := by
      simp [← hkinds]
    rw [← hpush]
    refine arrives_here hcontent fun k hk => ⟨(hkey k hk).1, ?_⟩
    rw [(hkey k hk).2]
    exact Nat.lt_succ_self m.line
  | @quoted s hunbroken =>
    obtain ⟨key, hscalar, hkey⟩ := quotedScalar_line tokens indents allowed hunbroken hnext
    have hshown : '\'' :: (doubleQuotes s.toList ++ ['\'']) ++
        '\n' :: (List.replicate column ' ' ++ content) =
        '\'' :: (doubleQuotes s.toList ++ '\'' :: '\n' :: (List.replicate column ' ' ++ content)) := by
      simp
    rw [hshown] at hstep ⊢
    rw [token_quote rfl, hscalar] at hstep
    refine ⟨_, .of_step hstep (by simp [isDone]) (by simp; omega), ?_⟩
    have hpush : (tokens.push ⟨.scalar (String.ofList s.toList) .quoted, m.ahead 1,
        (m.ahead 1).ahead ((doubleQuotes s.toList).length + 2)⟩).toList.map (·.kind) =
        kinds ++ [.scalar s .quoted] := by
      simp [← hkinds]
    rw [← hpush]
    refine arrives_line hcontent fun k hk => ⟨(hkey k hk).1, ?_⟩
    rw [(hkey k hk).2]
    exact Nat.le_refl m.line

end Lexer

end Yaml
end FlowObserver
