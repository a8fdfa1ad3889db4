import FlowObserver.Proofs.Yaml.Collections

/-!
# Tokens of documents

A document is a mapping whose values are of one line, sequences of such, or mappings again. All its
characters may be printed, and it is cut into the tokens of its mapping (`tokenize_document`).
-/

namespace FlowObserver
namespace Yaml

/-- A value that the printer writes without blocks of text: one of one line, a sequence of such, or a
mapping under distinct plain keys, nested at most so deep. -/
inductive Written : Nat → Json → Prop
  | leaf {depth : Nat} {j : Json} (h : Leaf j) : Written depth j
  | list {depth : Nat} {items : List Json} (h : ∀ j ∈ items, Leaf j) :
    Written (depth + 1) (.arr items)
  | mapping {depth : Nat} {fields : List (String × Json)} (hne : fields ≠ [])
      (hkeys : ∀ f ∈ fields, IsKey f.1) (hdistinct : (fields.map (·.1)).Nodup)
      (hvalues : ∀ f ∈ fields, Written depth f.2) : Written (depth + 1) (.obj fields)

theorem Written.fields {depth : Nat} {fields : List (String × Json)} (h : Written depth (.obj fields)) :
    fields ≠ [] ∧ (∀ f ∈ fields, IsKey f.1) ∧ ∀ f ∈ fields, Written (depth - 1) f.2 := by
  cases h with
  | leaf h => cases h
  | mapping hne hkeys hdistinct hvalues => exact ⟨hne, hkeys, hvalues⟩

theorem valueTokens_leaf {j : Json} (h : Leaf j) : valueTokens j = [scalarToken j] := by
  cases h <;> simp [valueTokens]

theorem Lexer.reads_written {depth : Nat} {j : Json} (h : Written depth j) :
    Reads j (valueTokens j) := by
  induction h with
  | leaf h =>
    rw [valueTokens_leaf h]
    exact reads_leaf h
  | @list _ items h =>
    cases items with
    | nil =>
      rw [valueTokens]
      exact reads_noItems
    | cons item rest =>
      rw [valueTokens]
      exact reads_items h
  | @mapping _ fields hne hkeys hdistinct hvalues ih =>
    obtain ⟨⟨name, j⟩, rest, rfl⟩ := List.exists_cons_of_ne_nil hne
    exact reads_entries hkeys ih

theorem isAllowed_of_isPrintable {c : Char} (h : isPrintable c = true) :
    isAllowed c = true ∧ c ≠ '\uFEFF' := by
  simp only [isPrintable, Bool.or_eq_true, Bool.and_eq_true, decide_eq_true_eq] at h
  refine ⟨?_, ?_⟩
  · simp only [isAllowed, Bool.or_eq_true, Bool.and_eq_true, decide_eq_true_eq]
    omega
  · rintro rfl
    revert h
    decide

theorem printable_doubleQuotes {cs : List Char} (h : ∀ c ∈ cs, isPrintable c = true) :
    ∀ c ∈ doubleQuotes cs, isPrintable c = true := by
  intro c hc
  obtain ⟨a, ha, hca⟩ := List.mem_flatMap.mp hc
  split at hca
  · rw [List.eq_of_mem_replicate (n := 2) hca]
    rfl
  · rw [List.mem_singleton.mp hca]
    exact h a ha

theorem printable_scalarText {j : Json} (h : Leaf j) : ∀ c ∈ scalarText j, isPrintable c = true := by
  cases h with
  | @str s hline =>
    have hchars : ∀ c ∈ s.toList, isPrintable c = true := fun c hc => (hline c hc).1
    rw [scalarText]
    split
    · exact hchars
    · have hquoted := printable_doubleQuotes hchars
      have hquote : isPrintable '\'' = true := by decide
      intro c hc
      rcases List.mem_cons.mp hc with rfl | hc
      · exact hquote
      · rcases List.mem_append.mp hc with hc | hc
        · exact hquoted c hc
        · rw [List.mem_singleton.mp hc]
          exact hquote
  | bool b => cases b <;> exact List.all_eq_true.mp (by decide)
  | @nat n => exact fun c hc => isPrintable_of_isAlphanum (isAlphanum_toString n c hc)

theorem printable_spaces (n : Nat) : (spaces n).toList.all isPrintable = true := by
  rw [spaces, String.toList_ofList, List.all_replicate]
  split <;> rfl

theorem printable_itemValue {j : Json} (h : Leaf j) (i : Nat) :
    (itemValue i j).toList.all isPrintable = true := by
  have htext := List.all_eq_true.mpr (printable_scalarText h)
  have hbreak : isPrintable '\n' = true := by decide
  simp [itemValue_leaf h, htext, hbreak]

theorem printable_items {items : List Json} (h : ∀ j ∈ items, Leaf j) (i : Nat) :
    (Yaml.items i items).toList.all isPrintable = true := by
  induction items with
  | nil => simp [Yaml.items]
  | cons item rest ih =>
    obtain ⟨hitem, hrest⟩ := List.forall_mem_cons.mp h
    have hdash : "- ".toList.all isPrintable = true := by decide
    simp only [Yaml.items, String.toList_append, List.all_append, printable_spaces, hdash,
      printable_itemValue hitem, ih hrest, Bool.and_self]

theorem printable_entries {fields : List (String × Json)} (hkeys : ∀ f ∈ fields, IsKey f.1) {i : Nat}
    (hvalues : ∀ f ∈ fields, (entryValue i f.2).toList.all isPrintable = true) :
    (entries i fields).toList.all isPrintable = true := by
  induction fields with
  | nil => simp [entries]
  | cons field rest ih =>
    obtain ⟨hkey, hkeys⟩ := List.forall_mem_cons.mp hkeys
    obtain ⟨hvalue, hvalues⟩ := List.forall_mem_cons.mp hvalues
    have hcolon : ":".toList.all isPrintable = true := by decide
    have hname : field.1.toList.all isPrintable = true := by
      have hspecial := hkey.plain
      simp only [Shape.allowsPlain, Shape.of, Bool.and_eq_true, Bool.not_eq_true'] at hspecial
      simpa using hspecial.1.1.2
    simp only [entries, String.toList_append, List.all_append, printable_spaces, hname, hcolon,
      hvalue, ih hkeys hvalues, Bool.and_self]

theorem printable_entryValue {depth : Nat} {j : Json} (h : Written depth j) (i : Nat) :
    (entryValue i j).toList.all isPrintable = true := by
  have hbreak : isPrintable '\n' = true := by decide
  induction h generalizing i with
  | leaf h =>
    have hspace : isPrintable ' ' = true := by decide
    rw [entryValue_leaf h, ← itemValue_leaf h i, List.all_cons, hspace, printable_itemValue h]
    rfl
  | @list _ items h =>
    cases items with
    | nil =>
      rw [entryValue]
      decide
    | cons item rest =>
      have hitems := printable_items h i
      simpa [entryValue, Yaml.items, hbreak] using hitems
  | @mapping _ fields hne hkeys hdistinct hvalues ih =>
    obtain ⟨⟨name, j⟩, rest, rfl⟩ := List.exists_cons_of_ne_nil hne
    have hentries := printable_entries hkeys fun f hf => ih f hf (i + 2)
    simpa [entryValue, entries, hbreak] using hentries

theorem printable_document {depth : Nat} {fields : List (String × Json)}
    (h : Written depth (.obj fields)) : (document fields).toList.all isPrintable = true := by
  obtain ⟨-, hkeys, hvalues⟩ := h.fields
  exact printable_entries hkeys fun f hf => printable_entryValue (hvalues f hf) 0

namespace Lexer

theorem run_finish {x : Lexer} {kinds : List TokenKind} (hx : x.Arrives kinds [0] [] 0)
    (fuel : Nat) :
    ∃ tokens, Lexer.run (fuel + 1) x = ⟨tokens, none⟩ ∧
      tokens.map (·.kind) = kinds ++ [.blockEnd, .streamEnd] := by
  obtain ⟨-, ⟨⟨_, m⟩, tokens, _, _, _⟩, hsettle, ⟨rfl, rfl, rfl, rfl, rfl⟩, hcolumn⟩ := hx
  have hm : m.column = 0 := hcolumn
  let z : Lexer := ⟨⟨[], m⟩, (tokens.push ⟨.blockEnd, m, m⟩).push ⟨.streamEnd, m, m⟩, [], [none],
    false⟩
  have hstep : x.step = .ok z := by
    rw [step_of_settle hsettle]
    change finish _ = _
    simp only [finish, mark, hm]
    rfl
  have hdone : z.isDone = true := by simp [z, isDone]
  refine ⟨z.tokens.toList, ?_, by simp [z]⟩
  rw [Lexer.run, hstep]
  simp only [hdone, if_true]

theorem arrives_document {name : String} (hkey : IsKey name) (j : Json)
    (rest : List (String × Json)) :
    Arrives { cursor := ⟨(document ((name, j) :: rest)).toList, {}⟩ } [] []
      (name.toList ++ ':' :: ((entryValue 0 j).toList ++
        ((entries 0 rest).toList ++ (List.replicate 0 ' ' ++ [])))) 0 := by
  have hchars : (document ((name, j) :: rest)).toList = name.toList ++ ':' ::
      ((entryValue 0 j).toList ++ ((entries 0 rest).toList ++ (List.replicate 0 ' ' ++ []))) := by
    simp [document, entries, spaces]
  rw [hchars]
  let x : Lexer := { cursor := ⟨name.toList ++ ':' :: ((entryValue 0 j).toList ++
    ((entries 0 rest).toList ++ (List.replicate 0 ' ' ++ []))), {}⟩ }
  have hsettle : x.settle = .ok x :=
    settle_fresh (x := x) (n := 0) (begins_of_key hkey _) (by simp [x]) (.inr (by simp [x]))
  exact ⟨Nat.le_refl _, x, hsettle, ⟨rfl, rfl, rfl, rfl, rfl⟩, rfl⟩

end Lexer

/-- Printable text is read as it is. -/
theorem tokenize_printable {text : String} (h : text.toList.all isPrintable = true) :
    tokenize text = Lexer.run (text.toList.length + 2) { cursor := ⟨text.toList, {}⟩ } := by
  have hprintable := List.all_eq_true.mp h
  have hallowed : text.toList.takeWhile isAllowed = text.toList :=
    List.takeWhile_eq_self_iff.mpr fun c hc => (isAllowed_of_isPrintable (hprintable c hc)).1
  have hmark : text.toList.head? ≠ some '\uFEFF' := fun hhead =>
    (isAllowed_of_isPrintable (hprintable _ (List.mem_of_head? hhead))).2 rfl
  simp only [tokenize, hallowed, String.length_toList, Nat.lt_irrefl, hmark, if_false]

/-- A document is cut into the tokens of its mapping. -/
theorem tokenize_document {depth : Nat} {fields : List (String × Json)}
    (h : Written depth (.obj fields)) :
    ∃ tokens, tokenize (document fields) = ⟨tokens, none⟩ ∧
      tokens.map (·.kind) = valueTokens (.obj fields) ++ [.streamEnd] := by
  rw [tokenize_printable (printable_document h)]
  obtain ⟨hne, hkeys, hvalues⟩ := h.fields
  obtain ⟨⟨name, j⟩, rest, rfl⟩ := List.exists_cons_of_ne_nil hne
  have hopened : Lexer.openedAt 0 [] = ([.blockMappingStart], [0]) := rfl
  have hempty : Begins [] := rfl
  obtain ⟨z, ⟨n, hn, hrun⟩, hz⟩ := Lexer.moves_entries hempty (Nat.le_refl 0) hkeys
    (fun f hf => Lexer.reads_written (hvalues f hf)) (by simp) (by rw [hopened])
    (Lexer.arrives_document (hkeys _ List.mem_cons_self) j rest)
  have hend : z.Arrives (.blockMappingStart :: entryTokens ((name, j) :: rest)) [0] [] 0 := by
    simpa [hopened, Lexer.closed] using hz
  obtain ⟨tokens, htokens, hkinds⟩ :=
    Lexer.run_finish hend ((document ((name, j) :: rest)).toList.length + 1 - n)
  refine ⟨tokens, ?_, by simpa [valueTokens] using hkinds⟩
  have hlength : n ≤ (document ((name, j) :: rest)).toList.length :=
    Nat.le_trans (Nat.le_add_right _ _) hn
  have hfuel : (document ((name, j) :: rest)).toList.length + 2 =
      (document ((name, j) :: rest)).toList.length + 1 - n + 1 + n := by omega
  rw [hfuel, hrun]
  exact htokens

end Yaml
end FlowObserver
