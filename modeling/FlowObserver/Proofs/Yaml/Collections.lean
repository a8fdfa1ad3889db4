import FlowObserver.Proofs.Yaml.Tokens

/-!
# Tokens of collections

A sequence of values of one line, and mappings of such values, of such sequences and of mappings.
Main result: behind its key, each such value is cut into the tokens that stand for it, and what is
left begins a line (`reads_entries`).
-/

namespace FlowObserver
namespace Yaml

mutual

def valueTokens : Json → List TokenKind
  | .arr [] => [.flowSequenceStart, .flowSequenceEnd]
  | .arr (item :: rest) => (item :: rest).flatMap fun j => [.blockEntry, scalarToken j]
  | .obj fields => .blockMappingStart :: (entryTokens fields ++ [.blockEnd])
  | j => [scalarToken j]

def entryTokens : List (String × Json) → List TokenKind
  | [] => []
  | (name, j) :: rest => .key :: .scalar name .plain :: .value :: (valueTokens j ++ entryTokens rest)

end

/-- A value stands on the line of its key or on the next one. -/
theorem entryValue_head (indent : Nat) (j : Json) (rest : List Char) :
    isGap ((entryValue indent j).toList ++ rest).head? = true := by
  have hspace : isGap (some ' ') = true := by decide
  have hbreak : isGap (some '\n') = true := by decide
  cases j with
  | arr items => cases items <;> simp [entryValue, hspace, hbreak]
  | obj fields => cases fields <;> simp [entryValue, hspace, hbreak]
  | _ => simp [entryValue, hspace]

theorem begins_of_key {name : String} (h : IsKey name) (rest : List Char) :
    Begins (name.toList ++ rest) := by
  obtain ⟨hplain, -, -⟩ := Plain.of_allowsPlain h.nonempty h.plain
  obtain ⟨c, cs, hcs⟩ := List.exists_cons_of_ne_nil h.nonempty
  have hc : isMark c = true := by simpa [hcs] using hplain.starts
  have hcomment : c ≠ '#' := by simpa [hcs] using hplain.head?_ne rfl
  simp [Begins, hcs, hc, hcomment]

namespace Lexer

variable {x : Lexer}

theorem closed_of_le {i column : Nat} (h : i ≤ column) (indents : List Nat) :
    closed column (i :: indents) = [] := by
  simp [closed, Nat.not_lt.mpr h]

theorem dropWhile_of_le {i column : Nat} (h : i ≤ column) (indents : List Nat) :
    (i :: indents).dropWhile (column < ·) = i :: indents := by
  simp [Nat.not_lt.mpr h]

theorem arrives_of_at {kinds : List TokenKind} {indents : List Nat} {allowed : Bool} {column : Nat}
    {content : List Char} (hcontent : Begins content)
    (hx : x.At kinds indents allowed ('\n' :: (List.replicate column ' ' ++ content))) :
    x.Arrives (kinds ++ closed column indents) (indents.dropWhile (column < ·)) content column := by
  obtain ⟨⟨_, m⟩, tokens, _, _, allowed⟩ := x
  obtain ⟨rfl, rfl, rfl, rfl, rfl⟩ := hx
  exact arrives_line hcontent (by simp)

theorem begins_dash (rest : List Char) : Begins ('-' :: rest) := rfl

/-- A dash at the column of the mapping around the sequence. -/
theorem moves_dash {kinds : List TokenKind} {i : Nat} {indents : List Nat} {rest : List Char}
    (hx : x.Arrives kinds (i :: indents) ('-' :: ' ' :: rest) i) :
    ∃ z, x.Moves z ∧ z.At (kinds ++ [.blockEntry]) (i :: indents) true (' ' :: rest) ∧
      i < z.mark.column := by
  obtain ⟨hlength, ⟨⟨_, m⟩, tokens, _, _, _⟩, hsettle, ⟨hkinds, rfl, rfl, rfl, rfl⟩, hcolumn⟩ := hx
  have hm : m.column = i := hcolumn
  let z : Lexer := ⟨⟨' ' :: rest, m.ahead 1⟩, tokens.push ⟨.blockEntry, m, m.ahead 1⟩, i :: indents,
    [none], true⟩
  have hroll : roll ⟨⟨'-' :: ' ' :: rest, m⟩, tokens, i :: indents, [none], true⟩ .blockSequenceStart =
      ⟨⟨'-' :: ' ' :: rest, m⟩, tokens, i :: indents, [none], true⟩ :=
    if_neg (by simp [deeper, mark, hm])
  have hstep : x.step = .ok z := by
    rw [step_of_settle hsettle, token_dash rfl, blockEntry]
    simp only [hroll]
    rfl
  have hz : z.At (kinds ++ [.blockEntry]) (i :: indents) true (' ' :: rest) :=
    ⟨by simp [z, ← hkinds], rfl, rfl, rfl, rfl⟩
  exact ⟨z, .of_step hstep (not_isDone hz (by simp)) (by simp [z] at hlength ⊢; omega), hz,
    hm ▸ Nat.lt_succ_self m.column⟩

/-- The items of a sequence, from its first dash on. -/
theorem moves_items {content : List Char} (hcontent : Begins content) {column i : Nat}
    (hcolumn : column ≤ i) {indents : List Nat} {item : Json} {rest : List Json}
    (h : ∀ j ∈ item :: rest, Leaf j) {kinds : List TokenKind}
    (hx : x.Arrives kinds (i :: indents) ('-' :: ' ' :: (scalarText item ++ '\n' ::
      ((items i rest).toList ++ (List.replicate column ' ' ++ content)))) i) :
    ∃ z, x.Moves z ∧ z.Arrives
      (kinds ++ (item :: rest).flatMap (fun j => [.blockEntry, scalarToken j]) ++
        closed column (i :: indents)) ((i :: indents).dropWhile (column < ·)) content column := by
  induction rest generalizing x item kinds with
  | nil =>
    obtain ⟨y, hxy, hy, hright⟩ := moves_dash hx
    obtain ⟨z, hyz, hz⟩ := moves_shown (shown_of_leaf (h item List.mem_cons_self)) hcontent
      (by simpa [items] using hy) hright hcolumn
    exact ⟨z, hxy.trans hyz, by simpa using hz⟩
  | cons next rest ih =>
    obtain ⟨hitem, hrest⟩ := List.forall_mem_cons.mp h
    obtain ⟨y, hxy, hy, hright⟩ := moves_dash hx
    have hnext : (items i (next :: rest)).toList ++ (List.replicate column ' ' ++ content) =
        List.replicate i ' ' ++ ('-' :: ' ' :: (scalarText next ++ '\n' ::
          ((items i rest).toList ++ (List.replicate column ' ' ++ content)))) := by
      simp [items, spaces, itemValue_leaf (hrest next List.mem_cons_self)]
    rw [hnext] at hy
    obtain ⟨z, hyz, hz⟩ := moves_shown (shown_of_leaf hitem) (begins_dash _) hy hright (Nat.le_refl i)
    rw [closed_of_le (Nat.le_refl i), dropWhile_of_le (Nat.le_refl i), List.append_nil] at hz
    obtain ⟨w, hzw, hw⟩ := ih hrest hz
    exact ⟨w, hxy.trans (hyz.trans hzw), by simpa using hw⟩

/-- Behind its key, a value is cut into these tokens. -/
def Reads (j : Json) (more : List TokenKind) : Prop :=
  ∀ {x : Lexer} {kinds : List TokenKind} {i : Nat} {indents : List Nat} {column : Nat}
    {content : List Char}, Begins content → column ≤ i →
    x.At kinds (i :: indents) false
      ((entryValue i j).toList ++ (List.replicate column ' ' ++ content)) →
    i < x.mark.column →
    ∃ z, x.Moves z ∧ z.Arrives (kinds ++ more ++ closed column (i :: indents))
      ((i :: indents).dropWhile (column < ·)) content column

theorem reads_leaf {j : Json} (h : Leaf j) : Reads j [scalarToken j] := by
  intro x kinds i indents column content hcontent hcolumn hx hright
  exact moves_shown (shown_of_leaf h) hcontent (by simpa [entryValue_leaf h] using hx) hright hcolumn

theorem reads_items {item : Json} {rest : List Json} (h : ∀ j ∈ item :: rest, Leaf j) :
    Reads (.arr (item :: rest)) ((item :: rest).flatMap fun j => [.blockEntry, scalarToken j]) := by
  intro x kinds i indents column content hcontent hcolumn hx hright
  have htext : (entryValue i (.arr (item :: rest))).toList ++ (List.replicate column ' ' ++ content) =
      '\n' :: (List.replicate i ' ' ++ ('-' :: ' ' :: (scalarText item ++ '\n' ::
        ((items i rest).toList ++ (List.replicate column ' ' ++ content))))) := by
    simp [entryValue, spaces, itemValue_leaf (h item List.mem_cons_self)]
  rw [htext] at hx
  have hfirst := arrives_of_at (begins_dash _) hx
  rw [closed_of_le (Nat.le_refl i), dropWhile_of_le (Nat.le_refl i), List.append_nil] at hfirst
  exact moves_items hcontent hcolumn h hfirst

theorem reads_noItems : Reads (.arr []) [.flowSequenceStart, .flowSequenceEnd] := by
  intro x kinds i indents column content hcontent hcolumn hx hright
  have htext : (entryValue i (.arr [])).toList ++ (List.replicate column ' ' ++ content) =
      ' ' :: '[' :: ']' :: '\n' :: (List.replicate column ' ' ++ content) := by
    simp [entryValue]
  rw [htext] at hx
  obtain ⟨⟨_, m⟩, tokens, _, _, _⟩ := x
  obtain ⟨hkinds, rfl, rfl, rfl, rfl⟩ := hx
  let line := '\n' :: (List.replicate column ' ' ++ content)
  let x : Lexer := ⟨⟨' ' :: '[' :: ']' :: line, m⟩, tokens, i :: indents, [none], false⟩
  let opening : Token := ⟨.flowSequenceStart, m.ahead 1, m.ahead 2⟩
  let closing : Token := ⟨.flowSequenceEnd, m.ahead 2, m.ahead 3⟩
  let y : Lexer :=
    ⟨⟨']' :: line, m.ahead 2⟩, tokens.push opening, i :: indents, [none, none], true⟩
  let z : Lexer := ⟨⟨line, m.ahead 3⟩, (tokens.push opening).push closing, i :: indents, [none], false⟩
  have hx_settle : x.settle = .ok { x with cursor := ⟨'[' :: ']' :: line, m.ahead 1⟩ } := by
    have hbegins : Begins ('[' :: ']' :: line) := rfl
    refine settle_fresh (x := x) (n := 1) hbegins (by simp [x]) (.inr fun k hk => ?_)
    obtain rfl : i = k := by simpa [x] using hk
    exact Nat.le_succ_of_le (Nat.le_of_lt hright)
  have hopen : x.step = .ok y := by
    rw [step_of_settle hx_settle, token_bracket rfl]
    rfl
  have hy_settle : y.settle = .ok y := by
    have hbegins : Begins (']' :: line) := rfl
    exact settle_fresh (x := y) (n := 0) hbegins (by simp [y]) (.inl rfl)
  have hclose : y.step = .ok z := by
    rw [step_of_settle hy_settle, token_closingBracket rfl]
    rfl
  have hxy : x.Moves y := .of_step hopen (by simp [y, opening, isDone]) (by simp [x, y])
  have hyz : y.Moves z := .of_step hclose (by simp [z, closing, isDone]) (by simp [y, z])
  have hend : z.Arrives _ _ content column := arrives_line hcontent (by simp)
  exact ⟨z, hxy.trans hyz, by simpa [opening, closing, ← hkinds] using hend⟩

theorem openedAt_self (i : Nat) (outer : List Nat) : openedAt i (i :: outer) = ([], i :: outer) := by
  simp [openedAt]

/-- The entries of a mapping, from its first key on. -/
theorem moves_entries {content : List Char} (hcontent : Begins content) {column i : Nat}
    (hcolumn : column ≤ i) {name : String} {j : Json} {rest : List (String × Json)}
    (hkeys : ∀ f ∈ (name, j) :: rest, IsKey f.1)
    (hvalues : ∀ f ∈ (name, j) :: rest, Reads f.2 (valueTokens f.2))
    {kinds : List TokenKind} {indents outer : List Nat} (hindents : ∀ k ∈ indents.head?, k ≤ i)
    (houter : (openedAt i indents).2 = i :: outer)
    (hx : x.Arrives kinds indents (name.toList ++ ':' :: ((entryValue i j).toList ++
      ((entries i rest).toList ++ (List.replicate column ' ' ++ content)))) i) :
    ∃ z, x.Moves z ∧ z.Arrives (kinds ++ (openedAt i indents).1 ++ entryTokens ((name, j) :: rest) ++
        closed column (i :: outer)) ((i :: outer).dropWhile (column < ·)) content column := by
  induction rest generalizing x name j kinds indents with
  | nil =>
    obtain ⟨y, hxy, hy, hright⟩ := moves_key (hkeys (name, j) List.mem_cons_self)
      (entryValue_head i j _) hx hindents
    rw [houter] at hy
    obtain ⟨z, hyz, hz⟩ := hvalues (name, j) List.mem_cons_self hcontent hcolumn
      (by simpa [entries] using hy) hright
    exact ⟨z, hxy.trans hyz, by simpa [entryTokens] using hz⟩
  | cons next rest ih =>
    obtain ⟨hkey, hkeys⟩ := List.forall_mem_cons.mp hkeys
    obtain ⟨hvalue, hvalues⟩ := List.forall_mem_cons.mp hvalues
    obtain ⟨y, hxy, hy, hright⟩ := moves_key hkey (entryValue_head i j _) hx hindents
    have hnext : (entries i (next :: rest)).toList ++ (List.replicate column ' ' ++ content) =
        List.replicate i ' ' ++ (next.1.toList ++ ':' :: ((entryValue i next.2).toList ++
          ((entries i rest).toList ++ (List.replicate column ' ' ++ content)))) := by
      simp [entries, spaces]
    rw [hnext, houter] at hy
    obtain ⟨z, hyz, hz⟩ := hvalue (begins_of_key (hkeys next List.mem_cons_self) _) (Nat.le_refl i) hy
      hright
    rw [closed_of_le (Nat.le_refl i), dropWhile_of_le (Nat.le_refl i), List.append_nil] at hz
    obtain ⟨w, hzw, hw⟩ := ih hkeys hvalues (by simp) (by rw [openedAt_self]) hz
    exact ⟨w, hxy.trans (hyz.trans hzw), by simpa [entryTokens, openedAt_self] using hw⟩

theorem reads_entries {name : String} {j : Json} {rest : List (String × Json)}
    (hkeys : ∀ f ∈ (name, j) :: rest, IsKey f.1)
    (hvalues : ∀ f ∈ (name, j) :: rest, Reads f.2 (valueTokens f.2)) :
    Reads (.obj ((name, j) :: rest)) (valueTokens (.obj ((name, j) :: rest))) := by
  intro x kinds i indents column content hcontent hcolumn hx hright
  have htext : (entryValue i (.obj ((name, j) :: rest))).toList ++
      (List.replicate column ' ' ++ content) =
      '\n' :: (List.replicate (i + 2) ' ' ++ (name.toList ++ ':' :: ((entryValue (i + 2) j).toList ++
        ((entries (i + 2) rest).toList ++ (List.replicate column ' ' ++ content))))) := by
    simp [entryValue, spaces]
  rw [htext] at hx
  have hfirst := arrives_of_at (begins_of_key (hkeys (name, j) List.mem_cons_self) _) hx
  rw [closed_of_le (Nat.le_add_right i 2), dropWhile_of_le (Nat.le_add_right i 2), List.append_nil]
    at hfirst
  have hopened : openedAt (i + 2) (i :: indents) = ([.blockMappingStart], (i + 2) :: i :: indents) := by
    simp [openedAt]
  obtain ⟨z, hxz, hz⟩ := moves_entries hcontent (Nat.le_add_right_of_le hcolumn) hkeys hvalues
    (by simp) (by rw [hopened]) hfirst
  have hdeeper : column < i + 2 := by omega
  exact ⟨z, hxz, by simpa [hopened, valueTokens, closed, hdeeper] using hz⟩

end Lexer

end Yaml
end FlowObserver
