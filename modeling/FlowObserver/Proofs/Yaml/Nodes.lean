import FlowObserver.Proofs.Yaml.Documents
import FlowObserver.Yaml.Document

/-!
# Nodes of written YAML

The tokens of a document are read as one node, which denotes the value that was written. Main result:
what the printer makes of a mapping is read back as that mapping (`value_document`).
-/

namespace FlowObserver
namespace Yaml

def scalarNode : Json → Node
  | .str s => .scalar none s (styleOf s = .plain)
  | j => .scalar none j.compact true

mutual

def nodeOf : Json → Node
  | .arr items => .sequence none (items.map scalarNode)
  | .obj fields => .mapping none (entryNodes fields)
  | j => scalarNode j

def entryNodes : List (String × Json) → List (Node × Node)
  | [] => []
  | (name, j) :: rest => (.scalar none name true, nodeOf j) :: entryNodes rest

end

theorem nodeOf_leaf {j : Json} (h : Leaf j) : nodeOf j = scalarNode j := by
  cases h <;> rw [nodeOf] <;> simp

/-- The reader with other tokens ahead. -/
def Reader.on (r : Reader) (tokens : List Token) : Reader := { r with tokens }

namespace Reading

variable (r : Reader) (t : Token) (rest : List Token)

theorem peek_run : peek.run (r.on (t :: rest)) = .ok (t, r.on (t :: rest)) := rfl

theorem accept_run_of_eq {kind : TokenKind} (h : t.kind = kind) :
    (accept kind).run (r.on (t :: rest)) = .ok (true, r.on rest) := by
  simp only [accept, StateT.run_bind, peek_run]
  change (if t.kind = kind then _ else _ : Reading Bool).run (r.on (t :: rest)) = _
  rw [if_pos h]
  rfl

theorem accept_run_of_ne {kind : TokenKind} (h : t.kind ≠ kind) :
    (accept kind).run (r.on (t :: rest)) = .ok (false, r.on (t :: rest)) := by
  simp only [accept, StateT.run_bind, peek_run]
  change (if t.kind = kind then _ else _ : Reading Bool).run (r.on (t :: rest)) = _
  rw [if_neg h]
  rfl

theorem nextIs_run (kinds : List TokenKind) :
    (nextIs kinds).run (r.on (t :: rest)) = .ok (kinds.contains t.kind, r.on (t :: rest)) := rfl

theorem bind_run {α β : Type} {m : Reading α} {f : α → Reading β} {r r' : Reader} {a : α}
    (h : m.run r = .ok (a, r')) : (m >>= f).run r = (f a).run r' := by
  rw [StateT.run_bind, h]
  rfl

section Node

variable {block unindented : Bool} {fuel : Nat}

theorem node_run_scalar {text : String} {form : ScalarForm} (h : t.kind = .scalar text form) :
    (node block unindented (fuel + 1)).run (r.on (t :: rest)) =
      .ok (.scalar none text (form = .plain), r.on rest) := by
  obtain ⟨_, start, stop⟩ := t
  obtain rfl := h
  rw [node]
  rfl

theorem node_run_flowSequence (h : t.kind = .flowSequenceStart) :
    (node block unindented (fuel + 1)).run (r.on (t :: rest)) =
      (Node.sequence none <$> flowItems t.start true fuel).run (r.on rest) := by
  obtain ⟨_, start, stop⟩ := t
  obtain rfl := h
  rw [node]
  rfl

theorem node_run_unindented (h : t.kind = .blockEntry) :
    (node block true (fuel + 1)).run (r.on (t :: rest)) =
      (Node.sequence none <$> unindentedItems fuel).run (r.on (t :: rest)) := by
  obtain ⟨_, start, stop⟩ := t
  obtain rfl := h
  rw [node]
  rfl

theorem node_run_blockMapping (h : t.kind = .blockMappingStart) :
    (node true unindented (fuel + 1)).run (r.on (t :: rest)) =
      (Node.mapping none <$> blockEntries t.start fuel).run (r.on rest) := by
  obtain ⟨_, start, stop⟩ := t
  obtain rfl := h
  rw [node]
  cases unindented <;> rfl

theorem blockNode_run {stops : List TokenKind} (h : stops.contains t.kind = false) :
    (blockNode unindented stops (fuel + 1)).run (r.on (t :: rest)) =
      (node true unindented fuel).run (r.on (t :: rest)) := by
  rw [blockNode, bind_run (nextIs_run r t rest stops), h]
  rfl

end Node

/-- Tokens of these kinds are read up to a token that may follow. -/
def Takes {α : Type} (m : Reading α) (kinds : List TokenKind) (follows : TokenKind → Prop) (a : α) :
    Prop :=
  ∀ (r : Reader) (tokens : List Token) (next : Token) (rest : List Token),
    tokens.map (·.kind) = kinds → follows next.kind →
    m.run (r.on (tokens ++ next :: rest)) = .ok (a, r.on (next :: rest))

theorem scalarToken_eq (j : Json) : ∃ text form, scalarToken j = .scalar text form ∧
    scalarNode j = .scalar none text (form = .plain) := by
  cases j with
  | str s => exact ⟨s, _, rfl, by rw [scalarNode]; split <;> simp [*]⟩
  | _ => exact ⟨_, .plain, rfl, rfl⟩

theorem node_run_leaf (block unindented : Bool) (fuel : Nat) {j : Json}
    (h : t.kind = scalarToken j) :
    (node block unindented (fuel + 1)).run (r.on (t :: rest)) = .ok (scalarNode j, r.on rest) := by
  obtain ⟨text, form, htoken, hnode⟩ := scalarToken_eq j
  rw [hnode, node_run_scalar r t _ (h.trans htoken)]

theorem contains_scalarToken (j : Json) {stops : List TokenKind}
    (h : ∀ text form, .scalar text form ∉ stops) : stops.contains (scalarToken j) = false := by
  obtain ⟨text, form, htoken, -⟩ := scalarToken_eq j
  rw [htoken, List.contains_eq_mem]
  exact decide_eq_false (h text form)

theorem takes_unindentedItems {items : List Json} {fuel : Nat} (hfuel : items.length + 3 ≤ fuel) :
    Takes (unindentedItems fuel) (items.flatMap fun j => [.blockEntry, scalarToken j])
      (· ≠ .blockEntry) (items.map scalarNode) := by
  intro r tokens next rest hkinds hnext
  induction items generalizing fuel tokens with
  | nil =>
    obtain ⟨fuel, rfl⟩ : ∃ k, fuel = k + 1 := ⟨fuel - 1, by omega⟩
    obtain rfl : tokens = [] := by simpa using hkinds
    rw [unindentedItems, List.nil_append, bind_run (accept_run_of_ne r next rest hnext)]
    rfl
  | cons item items ih =>
    obtain ⟨fuel, rfl⟩ : ∃ k, fuel = k + 3 := ⟨fuel - 3, by omega⟩
    obtain ⟨dash, tokens, rfl, hdash, hkinds⟩ := List.map_eq_cons_iff.mp hkinds
    obtain ⟨t, tokens, rfl, ht, hkinds⟩ := List.map_eq_cons_iff.mp hkinds
    have hitem : (blockNode false (.blockEntry :: blockStops) (fuel + 2)).run
        (r.on (t :: (tokens ++ next :: rest))) = .ok (scalarNode item, r.on (tokens ++ next :: rest)) := by
      rw [blockNode_run r t _ (by rw [ht]; exact contains_scalarToken item (by simp [blockStops]))]
      exact node_run_leaf r t _ true false fuel ht
    have hrest := ih (by simp at hfuel; omega : items.length + 3 ≤ fuel + 2) tokens hkinds
    rw [unindentedItems, List.cons_append, List.cons_append,
      bind_run (accept_run_of_eq r dash _ hdash)]
    simp only [if_true]
    rw [bind_run hitem, bind_run hrest]
    rfl

/-- In a mapping another key follows a value, or the end. -/
def EntryFollows (kind : TokenKind) : Prop := kind = .key ∨ kind = .blockEnd

/-- A value is read as its node. -/
def ReadsNode (j : Json) : Prop :=
  ∀ {fuel : Nat}, 3 * (valueTokens j).length ≤ fuel →
    Takes (node true true fuel) (valueTokens j) EntryFollows (nodeOf j)

theorem valueTokens_head {depth : Nat} {j : Json} (h : Written depth j) :
    ∃ kind more, valueTokens j = kind :: more ∧ blockStops.contains kind = false := by
  cases h with
  | leaf h =>
    exact ⟨_, [], valueTokens_leaf h, contains_scalarToken j (by simp [blockStops])⟩
  | @list _ items h =>
    cases items with
    | nil => exact ⟨_, _, valueTokens.eq_1, rfl⟩
    | cons item rest => exact ⟨.blockEntry, _, by rw [valueTokens]; rfl, rfl⟩
  | mapping => exact ⟨.blockMappingStart, _, by rw [valueTokens], rfl⟩

theorem takes_value {depth : Nat} {j : Json} (h : Written depth j) (hread : ReadsNode j) {fuel : Nat}
    (hfuel : 3 * (valueTokens j).length ≤ fuel) :
    Takes (blockNode true blockStops (fuel + 1)) (valueTokens j) EntryFollows (nodeOf j) := by
  intro r tokens next rest hkinds hnext
  obtain ⟨kind, _, hhead, hstops⟩ := valueTokens_head h
  have hnode := hread hfuel r tokens next rest hkinds hnext
  obtain ⟨t, tokens, rfl, ht, -⟩ := List.map_eq_cons_iff.mp (hkinds.trans hhead)
  rw [List.cons_append] at hnode ⊢
  rw [blockNode_run r t _ (by rw [ht]; exact hstops), hnode]

theorem entryTokens_head (fields : List (String × Json)) :
    ∃ kind more, entryTokens fields ++ [.blockEnd] = kind :: more ∧ EntryFollows kind := by
  cases fields with
  | nil => exact ⟨.blockEnd, [], rfl, .inr rfl⟩
  | cons field fields => exact ⟨.key, _, by rw [entryTokens]; rfl, .inl rfl⟩

theorem blockEntries_run_end (start : Mark) (r : Reader) {t : Token} (ht : t.kind = .blockEnd)
    (rest : List Token) (fuel : Nat) :
    (blockEntries start (fuel + 1)).run (r.on (t :: rest)) = .ok ([], r.on rest) := by
  rw [blockEntries, bind_run (accept_run_of_ne r t _ (by rw [ht]; exact TokenKind.noConfusion))]
  simp only [Bool.false_eq_true, if_false]
  rw [bind_run (accept_run_of_eq r t _ ht)]
  rfl

theorem blockEntries_run_entry (start : Mark) (r r' : Reader) {name : String}
    {tkey tname tcolon : Token} (hkey : tkey.kind = .key) (hname : tname.kind = .scalar name .plain)
    (hcolon : tcolon.kind = .value) {tokens : List Token} {n : Node} {fuel : Nat}
    (hvalue : (blockNode true blockStops (fuel + 2)).run (r.on tokens) = .ok (n, r')) :
    (blockEntries start (fuel + 3)).run (r.on (tkey :: tname :: tcolon :: tokens)) =
      (((.scalar none name true, n) :: ·) <$> blockEntries start (fuel + 2)).run r' := by
  have hkey_node : (blockNode true blockStops (fuel + 2)).run (r.on (tname :: tcolon :: tokens)) =
      .ok (.scalar none name true, r.on (tcolon :: tokens)) := by
    rw [blockNode_run r tname _ (by rw [hname]; rfl)]
    exact node_run_scalar r tname _ hname
  rw [blockEntries, bind_run (accept_run_of_eq r tkey _ hkey)]
  simp only [if_true]
  rw [bind_run hkey_node, bind_run (accept_run_of_eq r tcolon _ hcolon)]
  simp only [if_true]
  rw [bind_run hvalue]
  rfl

theorem takes_blockEntries {depth : Nat} {fields : List (String × Json)}
    (hvalues : ∀ f ∈ fields, Written depth f.2) (hread : ∀ f ∈ fields, ReadsNode f.2)
    (start : Mark) {fuel : Nat} (hfuel : 3 * (entryTokens fields).length + 1 ≤ fuel)
    (follows : TokenKind → Prop) :
    Takes (blockEntries start fuel) (entryTokens fields ++ [.blockEnd]) follows (entryNodes fields) := by
  intro r tokens next rest hkinds hnext
  induction fields generalizing fuel tokens with
  | nil =>
    obtain ⟨fuel, rfl⟩ : ∃ k, fuel = k + 1 := ⟨fuel - 1, by omega⟩
    obtain ⟨t, rfl, ht⟩ := List.map_eq_singleton_iff.mp hkinds
    exact blockEntries_run_end start r ht _ fuel
  | cons field fields ih =>
    obtain ⟨name, j⟩ := field
    obtain ⟨hvalue, hvalues⟩ := List.forall_mem_cons.mp hvalues
    obtain ⟨hvalue_read, hread⟩ := List.forall_mem_cons.mp hread
    rw [entryTokens] at hkinds hfuel
    simp only [List.length_cons, List.length_append] at hfuel
    obtain ⟨fuel, rfl⟩ : ∃ k, fuel = k + 3 := ⟨fuel - 3, by omega⟩
    obtain ⟨tkey, tokens, rfl, htkey, hkinds⟩ := List.map_eq_cons_iff.mp hkinds
    obtain ⟨tname, tokens, rfl, htname, hkinds⟩ := List.map_eq_cons_iff.mp hkinds
    obtain ⟨tcolon, tokens, rfl, htcolon, hkinds⟩ := List.map_eq_cons_iff.mp hkinds
    obtain ⟨vs, es, rfl, hvs, hes⟩ := List.map_eq_append_iff.mp
      (hkinds.trans (List.append_assoc (valueTokens j) (entryTokens fields) [.blockEnd]))
    obtain ⟨kind, _, hhead, hfollows⟩ := entryTokens_head fields
    obtain ⟨e, more, rfl, he, -⟩ := List.map_eq_cons_iff.mp (hes.trans hhead)
    have hlength : 3 * (valueTokens j).length ≤ fuel + 1 := by omega
    have hj := takes_value (j := j) hvalue hvalue_read hlength r vs e (more ++ next :: rest) hvs
      (he ▸ hfollows)
    have hmore := ih hvalues hread (by omega : _ ≤ fuel + 2) (e :: more) hes
    simp only [List.cons_append, List.append_assoc] at hmore ⊢
    rw [blockEntries_run_entry start r _ htkey htname htcolon hj, StateT.run_map, hmore]
    rfl

theorem takes_mapping {depth : Nat} {fields : List (String × Json)}
    (hvalues : ∀ f ∈ fields, Written depth f.2) (hread : ∀ f ∈ fields, ReadsNode f.2)
    (unindented : Bool) {fuel : Nat} (hfuel : 3 * (valueTokens (.obj fields)).length ≤ fuel)
    (follows : TokenKind → Prop) :
    Takes (node true unindented fuel) (valueTokens (.obj fields)) follows (nodeOf (.obj fields)) := by
  intro r tokens next rest hkinds hnext
  rw [valueTokens] at hkinds hfuel
  simp only [List.length_cons, List.length_append, List.length_nil] at hfuel
  obtain ⟨fuel, rfl⟩ : ∃ k, fuel = k + 1 := ⟨fuel - 1, by omega⟩
  obtain ⟨t, tokens, rfl, ht, hkinds⟩ := List.map_eq_cons_iff.mp hkinds
  have hentries := takes_blockEntries hvalues hread t.start (by omega : _ ≤ fuel) follows r tokens next
    rest hkinds hnext
  rw [List.cons_append, node_run_blockMapping r t _ ht, StateT.run_map, hentries, nodeOf]
  rfl

theorem readsNode_leaf {j : Json} (h : Leaf j) : ReadsNode j := by
  intro fuel hfuel r tokens next rest hkinds hnext
  rw [valueTokens_leaf h] at hkinds hfuel
  obtain ⟨fuel, rfl⟩ : ∃ k, fuel = k + 1 := ⟨fuel - 1, by simp at hfuel; omega⟩
  obtain ⟨t, rfl, ht⟩ := List.map_eq_singleton_iff.mp hkinds
  rw [nodeOf_leaf h, List.singleton_append]
  exact node_run_leaf r t _ true true fuel ht

theorem readsNode_list (items : List Json) : ReadsNode (.arr items) := by
  intro fuel hfuel r tokens next rest hkinds hnext
  cases items with
  | nil =>
    rw [valueTokens] at hkinds hfuel
    obtain ⟨fuel, rfl⟩ : ∃ k, fuel = k + 2 := ⟨fuel - 2, by simp at hfuel; omega⟩
    obtain ⟨t, tokens, rfl, ht, hkinds⟩ := List.map_eq_cons_iff.mp hkinds
    obtain ⟨u, rfl, hu⟩ := List.map_eq_singleton_iff.mp hkinds
    have hitems : (flowItems t.start true (fuel + 1)).run (r.on (u :: next :: rest)) =
        .ok ([], r.on (next :: rest)) := by
      rw [flowItems, bind_run (accept_run_of_eq r u _ hu)]
      rfl
    rw [List.cons_append, List.singleton_append, node_run_flowSequence r t _ ht, StateT.run_map,
      hitems, nodeOf]
    rfl
  | cons item items =>
    rw [valueTokens] at hkinds hfuel
    have hlength : 3 * (2 * (items.length + 1)) ≤ fuel := by
      simp only [List.length_flatMap, List.length_cons, List.length_nil, List.map_const',
        List.sum_replicate, smul_eq_mul] at hfuel
      omega
    obtain ⟨fuel, rfl⟩ : ∃ k, fuel = k + 1 := ⟨fuel - 1, by omega⟩
    have hitems := takes_unindentedItems (by simp; omega : (item :: items).length + 3 ≤ fuel) r tokens
      next rest hkinds (by rcases hnext with h | h <;> rw [h] <;> exact TokenKind.noConfusion)
    obtain ⟨dash, tokens, rfl, hdash, -⟩ := List.map_eq_cons_iff.mp hkinds
    rw [List.cons_append] at hitems ⊢
    rw [node_run_unindented r dash _ hdash, StateT.run_map, hitems, nodeOf]
    rfl

theorem readsNode_written {depth : Nat} {j : Json} (h : Written depth j) : ReadsNode j := by
  induction h with
  | leaf h => exact readsNode_leaf h
  | list => exact readsNode_list _
  | mapping hne hkeys hdistinct hvalues ih =>
    intro fuel hfuel
    exact takes_mapping hvalues (fun f hf => ih f hf) true hfuel EntryFollows

theorem documents_none {first : Bool} {r r' : Reader}
    (h : (document? first (6 * r.tokens.length + 8)).run r = .ok (none, r')) (fuel : Nat) :
    documents first r (fuel + 1) = ([], none) := by
  rw [documents, h]

theorem documents_some {first : Bool} {r r' : Reader} {n : Node}
    (h : (document? first (6 * r.tokens.length + 8)).run r = .ok (some n, r')) (fuel : Nat) :
    documents first r (fuel + 1) =
      (n :: (documents false r' fuel).1, (documents false r' fuel).2) := by
  rw [documents, h]

theorem reset_run (r : Reader) : (modify fun r => { r with
    anchors := [], handles := [], versioned := false } : Reading Unit).run r =
    .ok ((), { r with anchors := [], handles := [], versioned := false }) := rfl

/-- What the tokens of a document are read from. -/
def fresh : Reader := ⟨[], none, [], [], false⟩

theorem document?_run_mapping {depth : Nat} {fields : List (String × Json)}
    (h : Written depth (.obj fields)) {tokens : List Token}
    (hkinds : tokens.map (·.kind) = valueTokens (.obj fields)) {e : Token}
    (he : e.kind = .streamEnd) {fuel : Nat}
    (hfuel : 3 * (valueTokens (.obj fields)).length ≤ fuel) :
    (document? true fuel).run (fresh.on (tokens ++ [e])) =
      .ok (some (nodeOf (.obj fields)), fresh.on [e]) := by
  obtain ⟨-, -, hvalues⟩ := h.fields
  have hnode := takes_mapping hvalues (fun f hf => readsNode_written (hvalues f hf)) false hfuel
    (fun _ => True) fresh tokens e [] hkinds trivial
  have hnoEnd : (accept .documentEnd).run (fresh.on [e]) = .ok (false, fresh.on [e]) :=
    accept_run_of_ne fresh e [] (by rw [he]; exact TokenKind.noConfusion)
  rw [valueTokens] at hkinds
  obtain ⟨t, tokens, rfl, ht, -⟩ := List.map_eq_cons_iff.mp hkinds
  rw [List.cons_append] at hnode ⊢
  rw [document?, bind_run (reset_run _)]
  change (if !true then _ else _ : Reading (Option Node)).run (fresh.on (t :: (tokens ++ [e]))) = _
  simp only [Bool.not_true, Bool.false_eq_true, if_false]
  rw [bind_run (peek_run fresh t (tokens ++ [e]))]
  simp only [ht, isDirective, Bool.true_and, Bool.not_false, reduceCtorEq, if_false, ne_eq,
    not_false_eq_true, decide_true, if_true]
  rw [bind_run hnode, bind_run hnoEnd]
  rfl

theorem document?_run_end {e : Token} (he : e.kind = .streamEnd) (fuel : Nat) :
    (document? false (fuel + 1)).run (fresh.on [e]) = .ok (none, fresh.on [e]) := by
  have hnoEnd : (accept .documentEnd).run (fresh.on [e]) = .ok (false, fresh.on [e]) :=
    accept_run_of_ne fresh e [] (by rw [he]; exact TokenKind.noConfusion)
  have hskip : (skipDocumentEnds (fuel + 1)).run (fresh.on [e]) = .ok ((), fresh.on [e]) := by
    rw [skipDocumentEnds, bind_run hnoEnd]
    rfl
  rw [document?, bind_run (reset_run _)]
  change (if !false then _ else _ : Reading (Option Node)).run (fresh.on [e]) = _
  simp only [Bool.not_false, if_true]
  rw [bind_run hskip, bind_run (peek_run fresh e []), if_pos he]
  rfl

/-- The only document is the node of its mapping. -/
theorem documents_run {depth : Nat} {fields : List (String × Json)}
    (h : Written depth (.obj fields)) {tokens : List Token}
    (hkinds : tokens.map (·.kind) = valueTokens (.obj fields) ++ [.streamEnd]) :
    documents true (fresh.on tokens) (tokens.length + 1) = ([nodeOf (.obj fields)], none) := by
  obtain ⟨tokens, ends, rfl, hmapping, hend⟩ := List.map_eq_append_iff.mp hkinds
  obtain ⟨e, rfl, he⟩ := List.map_eq_singleton_iff.mp hend
  have hfuel : 3 * (valueTokens (.obj fields)).length ≤ 6 * (tokens ++ [e]).length + 8 := by
    have hlength := congrArg List.length hmapping
    rw [List.length_map] at hlength
    rw [List.length_append]
    omega
  have hfirst := document?_run_mapping h hmapping he hfuel
  have hlast := documents_none (r := fresh.on [e]) (document?_run_end he _) tokens.length
  refine (documents_some (r := fresh.on (tokens ++ [e])) hfirst _).trans ?_
  rw [List.length_append, List.length_singleton, hlast]

end Reading

theorem parse_document {depth : Nat} {fields : List (String × Json)}
    (h : Written depth (.obj fields)) :
    parse (document fields) = ([nodeOf (.obj fields)], none) := by
  obtain ⟨tokens, htokens, hkinds⟩ := tokenize_document h
  rw [parse, htokens]
  exact Reading.documents_run h hkinds

theorem value_scalarNode {j : Json} (h : Leaf j) (depth : Nat) :
    (scalarNode j).value depth = .ok j := by
  obtain ⟨text, form, htoken, hnode⟩ := Reading.scalarToken_eq j
  have hshown := shown_of_leaf h
  rw [htoken] at hshown
  generalize scalarText j = shown at hshown
  rw [hnode, Node.value, scalarValue]
  cases hshown with
  | plain hplain hvalue => simp [hvalue]
  | quoted => rfl

theorem itemValues_scalarNodes {items : List Json} (h : ∀ j ∈ items, Leaf j) (depth : Nat) :
    itemValues depth (items.map scalarNode) = .ok items := by
  induction items with
  | nil => rfl
  | cons item items ih =>
    obtain ⟨hitem, hitems⟩ := List.forall_mem_cons.mp h
    rw [List.map_cons, itemValues, value_scalarNode hitem, ih hitems]
    rfl

theorem entryValues_entryNodes {fields : List (String × Json)} {depth : Nat}
    (hvalues : ∀ f ∈ fields, (nodeOf f.2).value depth = .ok f.2)
    (before : List (String × Json)) (hdistinct : ((before ++ fields).map (·.1)).Nodup) :
    entryValues depth before (entryNodes fields) = .ok (before ++ fields) := by
  induction fields generalizing before with
  | nil => rw [entryNodes, entryValues, List.append_nil]
  | cons field fields ih =>
    obtain ⟨name, j⟩ := field
    obtain ⟨hvalue, hvalues⟩ := List.forall_mem_cons.mp hvalues
    have hnew : setField before name j = before ++ [(name, j)] := by
      have hfresh : ∀ f ∈ before, f.1 ≠ name := by
        rw [List.map_append, List.nodup_append] at hdistinct
        exact fun f hf => hdistinct.2.2 _ (List.mem_map_of_mem hf) _ List.mem_cons_self
      rw [setField, if_neg]
      simp only [List.any_eq_true, decide_eq_true_eq]
      rintro ⟨f, hf, hname⟩
      exact hfresh f hf hname
    rw [entryNodes, entryValues]
    simp only [isForeign, Option.any_none, Bool.false_eq_true, if_false, hvalue]
    change entryValues depth (setField before name j) (entryNodes fields) = _
    rw [hnew]
    have hrest := ih hvalues (before ++ [(name, j)]) (by simpa using hdistinct)
    rw [List.append_assoc, List.singleton_append] at hrest
    exact hrest

theorem value_nodeOf {depth : Nat} {j : Json} (h : Written depth j) :
    (nodeOf j).value depth = .ok j := by
  induction h with
  | leaf h =>
    rw [nodeOf_leaf h]
    exact value_scalarNode h _
  | list h =>
    rw [nodeOf, Node.value, itemValues_scalarNodes h]
    rfl
  | @mapping _ fields hne hkeys hdistinct hvalues ih =>
    rw [nodeOf, Node.value, entryValues_entryNodes ih [] hdistinct]
    rfl

/-- A written mapping is read back as it is. -/
theorem value_document {fields : List (String × Json)} (h : Written maxDepth (.obj fields)) :
    value (document fields) = .ok (.obj fields) := by
  rw [value, values, parse_document h]
  simp only [List.mapM_cons, value_nodeOf h]
  rfl

end Yaml
end FlowObserver
