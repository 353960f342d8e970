-- SUMMARY: The groups that the walk over a body enters are bodies of the grammar.
import AliasExpansion.Proofs.Grammar.Angles
import AliasExpansion.Proofs.Grammar.Spelling
import AliasExpansion.Proofs.Notice.Emission

/-!
# Entered groups

The walk finds the group that it enters in a member by rules of its own: by the word of the item,
by the last token, by counting angle brackets. Where a member does not mislead it
(`Placement.misleads`), that group is the body that the grammar reads there.
-/

namespace AliasExpansion

open Grammar Rule

namespace Placement

-- ---------------------------------------------------------------------------
-- Misleading members
-- ---------------------------------------------------------------------------

/-- The lookahead holds in front of some token. -/
def somewhere (look : Look) : List Token → Bool
  | [] => false
  | token :: rest => look.holds (.start (token :: rest)) || somewhere look rest

/-- Words that have a meaning in items and are names elsewhere. -/
def softWords : List String :=
  ["union", "auto", "default"]

/-- The group that is taken for the fields of a tuple struct stands behind a `where`. -/
def fieldsBehindWhere (tokens : List Token) : Bool :=
  (tupleFields? tokens).any fun place =>
    (tokens.take place).any (TokenTest.words ["where"]).holds

/-- What misleads the walk about the group to enter: a constant whose name is a soft word, or a
    condition that is taken for the fields of a struct; the visibility of a variant, if it is
    restricted; the path of a macro, if it starts with a soft word. -/
def misleads : Member → List Token → Bool
  | .statement, tokens =>
    somewhere (.and (word ["const"]) (wordAt 1 softWords)) tokens ||
      (body? tokens).isNone && fieldsBehindWhere tokens
  | .variant, tokens => somewhere (.and (word ["pub"]) (groupAt 1 .parenthesis)) tokens
  | .assocItem, tokens => somewhere (.and (word softWords) (.mark 1 colons)) tokens
  | .namedField, _ | .tupleField, _ => false

theorem somewhere_append {look : Look} {before after : List Token}
    (h : somewhere look (before ++ after) = false) : somewhere look after = false := by
  induction before with
  | nil => exact h
  | cons token before ih => exact ih (Bool.or_eq_false_iff.mp h).2

theorem holds_of_somewhere {look : Look} {token : Token} {rest : List Token}
    (h : somewhere look (token :: rest) = false) : look.holds (.start (token :: rest)) = false :=
  (Bool.or_eq_false_iff.mp h).1

-- ---------------------------------------------------------------------------
-- Before the word of an item
-- ---------------------------------------------------------------------------

/-- A token of an attribute or a visibility, or a qualifier. -/
def isPrelude : Token → Bool
  | .punct c _ _ => c == '#'
  | .ident name _ => qualifiers.contains name
  | .group delimiter _ _ => delimiter != .brace
  | .literal _ => false

variable {prelude tokens rest : List Token} {place : Nat}

theorem itemKindAfter_qualifier {foreign : Bool} {name : String} {span : Span}
    (mem : name ∈ qualifiers) :
    itemKindAfter foreign (.ident name span :: rest) = itemKindAfter foreign rest := by
  have known : ∀ name ∈ qualifiers, itemWords.lookup name = none ∧ name ≠ "extern" := by decide
  obtain ⟨unknown, ne⟩ := known name mem
  rw [itemKindAfter, unknown]
  simp only [ne, if_false, List.contains_iff_mem.mpr mem, if_true]

theorem itemKind?_prelude (h : ∀ token ∈ prelude, isPrelude token = true) :
    itemKind? (prelude ++ rest) = itemKind? rest := by
  unfold itemKind?
  induction prelude with
  | nil => rfl
  | cons token prelude ih =>
    obtain ⟨first, later⟩ := List.forall_mem_cons.mp h
    rw [List.cons_append]
    cases token with
    | ident name span =>
      exact (itemKindAfter_qualifier (List.contains_iff_mem.mp first)).trans (ih later)
    | punct | literal => exact ih later
    | group delimiter content span =>
      rw [itemKindAfter, Bool.and_false, if_neg Bool.false_ne_true]
      · exact ih later
      · nofun

theorem tupleFieldsFrom_prelude (h : ∀ token ∈ prelude, isPrelude token = true) (place : Nat) :
    tupleFieldsFrom place false false 0 (prelude ++ rest)
      = tupleFieldsFrom (place + prelude.length) false false 0 rest := by
  induction prelude generalizing place with
  | nil => rfl
  | cons token prelude ih =>
    obtain ⟨first, later⟩ := List.forall_mem_cons.mp h
    rw [List.cons_append, List.length_cons, Nat.add_comm prelude.length, ← Nat.add_assoc,
      ← ih later]
    cases token with
    | ident name span =>
      have known : ∀ name ∈ qualifiers,
          (false || name == "struct" || name == "union") = false := by decide
      rw [tupleFieldsFrom, known name (List.contains_iff_mem.mp first)]
    | punct c joint span =>
      obtain rfl : c = '#' := eq_of_beq first
      rfl
    | literal => cases first
    | group delimiter content span => cases delimiter <;> rfl

/-- A token that is no bracket is passed over between brackets. -/
theorem tupleFieldsFrom_flat {token : Token} (isFlat : token.isFlat = true) (place depth : Nat)
    (dash : Bool) :
    tupleFieldsFrom place true dash (depth + 1) (token :: rest)
      = tupleFieldsFrom (place + 1) true false (depth + 1) rest := by
  cases token with
  | ident name span => rw [tupleFieldsFrom, Bool.true_or, Bool.true_or]
  | punct c joint span =>
    simp only [Token.isFlat, Bool.and_eq_true, bne_iff_ne] at isFlat
    obtain ⟨⟨left, right⟩, dash'⟩ := isFlat
    simp only [tupleFieldsFrom, beq_eq_false_iff_ne.mpr left, beq_eq_false_iff_ne.mpr right,
      beq_eq_false_iff_ne.mpr dash', Bool.false_and, Bool.false_eq_true, if_false]
  | literal => rfl
  | group delimiter content span =>
    cases delimiter with
    | parenthesis =>
      have inside : ((depth : Int) + 1 == 0) = false := beq_eq_false_iff_ne.mpr (by omega)
      rw [tupleFieldsFrom, inside, Bool.and_false, if_neg Bool.false_ne_true]
    | bracket | brace | none => rfl

/-- Balanced tokens are passed over between brackets. -/
theorem tupleFieldsFrom_angled {depth final : Nat} (h : Token.Angled depth tokens final)
    (place : Nat) (rest : List Token) :
    tupleFieldsFrom place true false (depth + 1) (tokens ++ rest)
      = tupleFieldsFrom (place + tokens.length) true false (final + 1) rest := by
  induction h generalizing place with
  | nil => rfl
  | flat isFlat _ ih =>
    rw [List.cons_append, tupleFieldsFrom_flat isFlat, ih, List.length_cons, Nat.add_assoc,
      Nat.add_comm 1]
  | opens _ ih =>
    have step := ih (place + 1)
    rw [Nat.add_assoc, Nat.add_comm 1] at step
    exact step
  | @closes depth _ _ _ _ _ ih =>
    have step := ih (place + 1)
    rw [Nat.add_assoc, Nat.add_comm 1, ← Int.add_sub_cancel ((depth : Int) + 1) 1] at step
    exact step
  | arrow _ ih =>
    have step := ih (place + 2)
    rw [Nat.add_assoc, Nat.add_comm 2] at step
    exact step
  | @minus depth joint span token tokens final isFlat _ ih =>
    have step := (tupleFieldsFrom_flat isFlat (place + 1) depth joint).trans (ih (place + 2))
    rw [Nat.add_assoc, Nat.add_comm 2] at step
    exact step

theorem le_of_tupleFieldsFrom {seen dash : Bool} {nesting : Int} {found : Nat}
    (h : tupleFieldsFrom place seen dash nesting tokens = some found) : place ≤ found := by
  fun_induction tupleFieldsFrom place seen dash nesting tokens with
  | case1 => cases h
  | case4 => cases h; exact Nat.le_refl _
  | case2 | case3 | case5 | case6 =>
    rename_i ih
    exact Nat.le_of_succ_le (ih h)

-- ---------------------------------------------------------------------------
-- The word of an item
-- ---------------------------------------------------------------------------

variable {budget : Nat} {rule : Production} {cursor head final : Cursor} {core : List Token}
  {inner : Member}

theorem isPrelude_attributes (h : Token.Attributes tokens) :
    ∀ token ∈ tokens, isPrelude token = true := by
  induction h with
  | nil => exact nofun
  | cons _ ih => exact List.forall_mem_cons.mpr ⟨rfl, List.forall_mem_cons.mpr ⟨rfl, ih⟩⟩

theorem isPrelude_visibility (h : Takes budget (.call .visibility) cursor final tokens) :
    ∀ token ∈ tokens, isPrelude token = true := by
  have pub : qualifiers.contains "pub" = true := by decide
  rcases h.visibility with rfl | ⟨span, rfl | ⟨content, span', rfl⟩⟩
  · exact nofun
  · exact List.forall_mem_singleton.mpr pub
  · exact List.forall_mem_cons.mpr ⟨pub, List.forall_mem_singleton.mpr rfl⟩

theorem isPrelude_eatWord {word : String} (mem : word ∈ qualifiers)
    (h : Takes budget (.eatWord word) cursor final tokens) :
    ∀ token ∈ tokens, isPrelude token = true := by
  rcases h.eatWord with rfl | ⟨span, rfl⟩
  · exact nofun
  · exact List.forall_mem_singleton.mpr (List.contains_iff_mem.mpr mem)

theorem isPrelude_fnQualifiers (h : Takes budget (.call .fnQualifiers) cursor final tokens) :
    ∀ token ∈ tokens, isPrelude token = true := by
  refine h.repeated (P := fun tokens => ∀ token ∈ tokens, isPrelude token = true) rfl nofun
    fun holds first more => ?_
  obtain ⟨name, mem, span, rfl⟩ := first.word holds
  have known : ∀ name ∈ ["const", "async", "unsafe"], qualifiers.contains name = true := by
    decide
  exact List.forall_mem_cons.mpr ⟨known name mem, more⟩

theorem itemKind?_fn (h : Takes budget (Nonterminal.rule .fn) cursor final core) :
    itemKind? core = some .fn := by
  obtain ⟨_, words, _, rfl, hwords, h⟩ := h.seq
  obtain ⟨_, abi, _, rfl, habi, h⟩ := h.seq
  obtain ⟨_, _, rest, rfl, hfn, -⟩ := h.seq
  obtain ⟨span, rfl⟩ := hfn.expectWord
  rw [itemKind?_prelude (isPrelude_fnQualifiers hwords)]
  rcases habi.optional with ⟨holds, h⟩ | ⟨-, rfl, -⟩
  · obtain ⟨_, _, _, rfl, hextern, hlit⟩ := h.seq
    obtain ⟨name, mem, span', rfl⟩ := hextern.word holds
    obtain rfl := List.mem_singleton.mp mem
    rcases hlit.literal with rfl | ⟨lit, rfl⟩ <;> rfl
  · rfl

-- ---------------------------------------------------------------------------
-- Bodies at the end
-- ---------------------------------------------------------------------------

theorem body?_punct (tokens : List Token) (c : Char) (joint : Bool) (span : Span) :
    body? (tokens ++ [.punct c joint span]) = none := by
  rw [body?, List.getLast?_concat]
  rfl

theorem body?_group (tokens content : List Token) (span : Span) :
    body? (tokens ++ [.group .brace content span]) = some tokens.length := by
  rw [body?, List.getLast?_concat, List.length_append]
  rfl

/-- The rule, run from `head` to `final`, reads a group of the tokens as a body: the one at
    `place`, which has members of the kind. -/
def Enters (rule : Production) (head final : Cursor) (tokens : List Token) (place : Nat)
    (inner : Member) : Prop :=
  ∃ before delimiter content span after entry,
    tokens = before ++ .group delimiter content span :: after ∧ before.length = place
    ∧ Reaches rule head (.within delimiter (Grammar.content inner)) entry
    ∧ entry.rest = .group delimiter content span :: (after ++ final.rest)

theorem Enters.mono {rule' : Production} {head' : Cursor}
    (reach : ∀ {target entry}, Reaches rule head target entry → Reaches rule' head' target entry)
    (h : Enters rule head final tokens place inner) :
    Enters rule' head' final tokens place inner := by
  obtain ⟨before, delimiter, content, span, after, entry, split, length, reach', rest⟩ := h
  exact ⟨before, delimiter, content, span, after, entry, split, length, reach reach', rest⟩

/-- A body that ends the rule is the last token. -/
theorem enters_last (prelude : List Token) (h : Takes budget rule head final core)
    (last : rule.last = .within .brace (Grammar.content inner)) :
    body? (prelude ++ core) = some (prelude ++ core).length.pred
      ∧ Enters rule head final (prelude ++ core) (prelude ++ core).length.pred inner := by
  obtain ⟨middle, before, after, rfl, -, h, reach⟩ := h.last
  rw [last] at h reach
  obtain ⟨content, span, rfl, rest⟩ := h.within
  have length : (prelude ++ (before ++ [Token.group .brace content span])).length.pred
      = (prelude ++ before).length := by
    rw [← List.append_assoc, List.length_append]
    rfl
  rw [length, ← List.append_assoc]
  exact ⟨body?_group .., prelude ++ before, .brace, content, span, [], middle, rfl, rfl,
    reach .here, rest⟩

/-- Where a semicolon or a block ends the rule, the walk enters the block. -/
theorem enters_block (h : Takes budget rule head final core)
    (last : rule.last = .ite (.mark 0 [';']) (.skip 1) block)
    (found : body? (prelude ++ core) = some place) :
    Enters rule head final (prelude ++ core) place .statement := by
  obtain ⟨middle, before, after, rfl, -, h, reach⟩ := h.last
  rw [last] at h reach
  rcases h.ite with ⟨holds, h⟩ | ⟨fails, h⟩
  · obtain ⟨joint, span, rfl, -⟩ := h.mark holds
    rw [← List.append_assoc, body?_punct] at found
    cases found
  · obtain ⟨content, span, rfl, rest⟩ := h.within
    rw [← List.append_assoc] at found ⊢
    rw [body?_group] at found
    cases found
    exact ⟨prelude ++ before, .brace, content, span, [], middle, rfl, rfl,
      reach (.no fails .here), rest⟩

-- ---------------------------------------------------------------------------
-- Items
-- ---------------------------------------------------------------------------

/-- The members of the body that ends an item. -/
def bodyKind? : ItemKind → Option Member
  | .struct | .union => some .namedField
  | .enum => some .variant
  | .trait | .foreign => some .assocItem
  | .fn | .mod => some .statement
  | .impl => none

theorem entry?_body {kind : ItemKind} (word : itemKind? tokens = some kind)
    (found : body? tokens = some place) :
    entry? .statement tokens = (bodyKind? kind).map (place, ·) := by
  rw [ entry?, word, found]
  cases kind <;> rfl

theorem entry?_none (word : itemKind? tokens = none ∨ itemKind? tokens = some .impl) :
    entry? .statement tokens = none := by
  rcases word with word | word <;> rw [ entry?, word]

/-- What the walk enters in an item behind a prelude, the rule reads as a body. -/
def Agrees (rule : Production) (head : Cursor) : Prop :=
  ∀ {budget final core prelude place inner}, Takes budget rule head final core →
    (∀ token ∈ prelude, isPrelude token = true) → misleads .statement (prelude ++ core) = false →
    entry? .statement (prelude ++ core) = some (place, inner) →
    Enters rule head final (prelude ++ core) place inner

/-- The kind of every item that the rule takes is known, and a body of that kind ends the rule. -/
theorem agrees_of_last (kind : ItemKind)
    (word : ∀ {budget final core}, Takes budget rule head final core → itemKind? core = some kind)
    (last : ∃ inner, bodyKind? kind = some inner
      ∧ rule.last = .within .brace (Grammar.content inner)) : Agrees rule head := by
  intro budget final core prelude place inner h isPrelude _ entry
  obtain ⟨expected, hkind, last⟩ := last
  obtain ⟨found, enters⟩ := enters_last prelude h last
  rw [entry?_body ((itemKind?_prelude isPrelude).trans (word h)) found, hkind] at entry
  cases entry
  exact enters

/-- The walk enters nothing in an implementation, and in an item without a kind. -/
theorem agrees_of_none
    (word : ∀ {budget final core prelude}, Takes budget rule head final core →
      misleads .statement (prelude ++ core) = false →
      itemKind? core = none ∨ itemKind? core = some .impl) :
    Agrees rule head := by
  intro budget final core prelude place inner h isPrelude plain entry
  have kind := word h plain
  rw [← itemKind?_prelude isPrelude] at kind
  rw [entry?_none kind] at entry
  cases entry

/-- A semicolon or a block ends the item, and the kind of every item that the rule takes is known. -/
theorem agrees_of_block (kind : ItemKind)
    (word : ∀ {budget final core}, Takes budget rule head final core → itemKind? core = some kind)
    (isBlock : kind = .fn ∨ kind = .mod)
    (last : rule.last = .ite (.mark 0 [';']) (.skip 1) block) : Agrees rule head := by
  intro budget final core prelude place inner h isPrelude _ entry
  have known := (itemKind?_prelude isPrelude).trans (word h)
  cases found : body? (prelude ++ core) with
  | none =>
    rw [ entry?, known, found] at entry
    rcases isBlock with rfl | rfl <;> cases entry
  | some place' =>
    rw [entry?_body known found] at entry
    rcases isBlock with rfl | rfl <;> cases entry <;> exact enters_block h last found

theorem agrees_fn : Agrees (.call .fn) head := by
  intro budget final core prelude place inner h isPrelude plain entry
  obtain ⟨_, -, h⟩ := h.call
  have agrees : Agrees (Nonterminal.rule .fn) head :=
    agrees_of_block .fn itemKind?_fn (.inl rfl) rfl
  exact (agrees h isPrelude plain entry).mono .call

/-- An item whose first word tells its kind. -/
theorem itemKind?_of_word {name : String} {second : Production} (kind : Option ItemKind)
    (holds : (Grammar.word [name]).holds head = true)
    (h : Takes budget (.seq (.skip 1) second) head final core)
    (known : ∀ span rest, itemKind? (.ident name span :: rest) = kind) :
    itemKind? core = kind := by
  obtain ⟨_, _, rest, rfl, h, -⟩ := h.seq
  obtain ⟨name, mem, span, rfl⟩ := h.word holds
  obtain rfl := List.mem_singleton.mp mem
  exact known span rest

theorem agrees_union (holds : (Grammar.word ["union"]).holds head = true) :
    Agrees (steps [.skip 1, header, body .namedField]) head :=
  agrees_of_last .union (itemKind?_of_word _ holds · fun _ _ => rfl) ⟨.namedField, rfl, rfl⟩

theorem agrees_enum (holds : (Grammar.word ["enum"]).holds head = true) :
    Agrees (steps [.skip 1, header, body .variant]) head :=
  agrees_of_last .enum (itemKind?_of_word _ holds · fun _ _ => rfl) ⟨.variant, rfl, rfl⟩

theorem agrees_trait : Agrees traitRule head := by
  refine agrees_of_last .trait ?_ ⟨.assocItem, rfl, rfl⟩
  intro budget final core h
  obtain ⟨_, unsafes, _, rfl, hunsafe, h⟩ := h.seq
  obtain ⟨_, autos, _, rfl, hauto, h⟩ := h.seq
  obtain ⟨_, _, rest, rfl, htrait, -⟩ := h.seq
  obtain ⟨span, rfl⟩ := htrait.expectWord
  rw [itemKind?_prelude (isPrelude_eatWord (by decide) hunsafe),
    itemKind?_prelude (isPrelude_eatWord (by decide) hauto)]
  rfl

theorem agrees_impl : Agrees implRule head := by
  refine agrees_of_none fun h _ => .inr ?_
  obtain ⟨_, unsafes, _, rfl, hunsafe, h⟩ := h.seq
  obtain ⟨_, _, rest, rfl, himpl, -⟩ := h.seq
  obtain ⟨span, rfl⟩ := himpl.expectWord
  rw [itemKind?_prelude (isPrelude_eatWord (by decide) hunsafe)]
  rfl

theorem agrees_mod (holds : (Grammar.word ["mod"]).holds head = true) :
    Agrees (steps [.skip 1, name, .ite (.mark 0 [';']) (.skip 1) block]) head :=
  agrees_of_block .mod (itemKind?_of_word _ holds · fun _ _ => rfl) (.inr rfl) rfl

/-- A name that is no soft word is no word of an item. -/
theorem itemKind?_name {name : String} {span : Span}
    (isName : Name.isPathSegment name = true ∨ name = "_") (hard : name ∉ softWords) :
    itemKind? (.ident name span :: rest) = none := by
  have known : ∀ word ∈ "extern" :: qualifiers ++ itemWords.map Prod.fst,
      Name.isPathSegment word = false ∧ word ≠ "_" ∨ word ∈ softWords := by decide
  have free : ∀ word ∈ "extern" :: qualifiers ++ itemWords.map Prod.fst, name ≠ word := by
    rintro word mem rfl
    rcases known name mem with ⟨reserved, ne⟩ | soft
    · rcases isName with isName | rfl
      · cases reserved.symm.trans isName
      · exact ne rfl
    · exact hard soft
  have unknown : itemWords.lookup name = none := by
    refine List.lookup_eq_none_iff.mpr fun entry mem => bne_iff_ne.mpr ?_
    exact free _ (List.mem_append_right _ (List.mem_map_of_mem mem))
  have unqualified : qualifiers.contains name = false := by
    rw [Bool.eq_false_iff, ne_eq, List.contains_iff_mem]
    exact fun mem => free name (List.mem_append_left _ (List.mem_cons_of_mem _ mem)) rfl
  rw [itemKind?, itemKindAfter, unknown]
  simp only [free "extern" (by decide), unqualified, if_false, Bool.false_eq_true]

theorem agrees_const (holds : (Grammar.word ["const"]).holds head = true) :
    Agrees (steps [.skip 1, nameOrUnderscore, typedValue]) head := by
  refine agrees_of_none fun {_ _ _ prelude} h plain => .inl ?_
  obtain ⟨_, _, named, rfl, hconst, hrest⟩ := h.seq
  obtain ⟨_, mem, span, rfl⟩ := hconst.word holds
  obtain rfl := List.mem_singleton.mp mem
  obtain ⟨_, _, typed, rfl, hname, -⟩ := hrest.seq
  obtain ⟨name, span', rfl, isName⟩ := hname.nameOrUnderscore
  have plain := holds_of_somewhere (somewhere_append (Bool.or_eq_false_iff.mp plain).1)
  have hard : softWords.contains name = false := plain
  refine (itemKindAfter_qualifier (by decide)).trans (itemKind?_name isName ?_)
  exact fun mem => Bool.false_ne_true (hard.symm.trans (List.contains_iff_mem.mpr mem))

/-- A definition with a word of its own is no item that is entered. -/
theorem agrees_plain {name : String} {second : Production}
    (holds : (Grammar.word [name]).holds head = true)
    (plain : ∀ span rest, itemKind? (.ident name span :: rest) = none) :
    Agrees (.seq (.skip 1) second) head :=
  agrees_of_none fun h _ => .inl (itemKind?_of_word none holds h plain)

theorem agrees_typeAlias : Agrees (.call .typeAlias) head := by
  refine agrees_of_none fun h _ => .inl ?_
  obtain ⟨_, -, h⟩ := h.call
  obtain ⟨_, _, _, rfl, htype, -⟩ := h.seq
  obtain ⟨span, rfl⟩ := htype.expectWord
  rfl

theorem agrees_extern (holds : (Grammar.word ["extern"]).holds head = true) :
    Agrees (steps [.skip 1, externRule]) head := by
  intro budget final core prelude place inner h isPrelude _ entry
  obtain ⟨middle, _, rest, rfl, hextern, hrest⟩ := h.seq
  obtain ⟨_, mem, span, rfl⟩ := hextern.word holds
  obtain rfl := List.mem_singleton.mp mem
  rcases hrest.ite with ⟨isCrate, h⟩ | ⟨fails, h⟩
  · have kind : itemKind? (prelude ++ ([.ident "extern" span] ++ rest)) = none := by
      obtain ⟨_, _, rest, rfl, hcrate, -⟩ := h.seq
      obtain ⟨_, mem, span', rfl⟩ := hcrate.word isCrate
      obtain rfl := List.mem_singleton.mp mem
      exact itemKind?_prelude isPrelude
    rw [entry?_none (.inl kind)] at entry
    cases entry
  · have kind : itemKind? (prelude ++ ([.ident "extern" span] ++ rest)) = some .foreign := by
      obtain ⟨_, _, _, rfl, habi, hbody⟩ := h.seq
      obtain ⟨content, span', rfl, -⟩ := hbody.within
      rw [itemKind?_prelude isPrelude]
      rcases habi.literal with rfl | ⟨lit, rfl⟩ <;> rfl
    rw [← List.append_assoc] at entry kind ⊢
    have last : Rule.last (steps [optionalLiteral, assocBody])
        = .within .brace (Grammar.content .assocItem) := rfl
    obtain ⟨found, enters⟩ := enters_last _ h last
    rw [entry?_body kind found] at entry
    cases entry
    exact enters.mono fun r => .second hextern.run (.no fails r)

-- ---------------------------------------------------------------------------
-- Structs
-- ---------------------------------------------------------------------------

theorem tupleFieldsFrom_generics (h : Takes budget (.call .generics) cursor final tokens)
    (place : Nat) :
    tupleFieldsFrom place true false 0 (tokens ++ rest)
      = tupleFieldsFrom (place + tokens.length) true false 0 rest := by
  obtain ⟨_, -, h⟩ := h.call
  rcases h.optional with ⟨holds, h⟩ | ⟨-, rfl, -⟩
  · obtain ⟨_, _, _, rfl, hopen, hrest⟩ := h.seq
    obtain ⟨joint, span, rfl, -⟩ := hopen.mark holds
    obtain ⟨_, params, _, rfl, hparams, hclose⟩ := hrest.seq
    obtain ⟨joint', span', rfl, -⟩ := hclose.expectMark
    obtain ⟨passed, passes, angled⟩ := hparams.run.angled rfl
    obtain rfl := hparams.passes.unique passes
    have length : place + 1 + params.length + 1
        = place +
          ([Token.punct '<' joint span] ++ (params ++ [Token.punct '>' joint' span'])).length := by
      simp only [List.length_append, List.length_singleton]
      omega
    rw [← length, List.append_assoc, List.append_assoc]
    exact tupleFieldsFrom_angled angled (place + 1) (.punct '>' joint' span' :: rest)
  · rfl

theorem whereClause_cases (h : Takes budget (.call .whereClause) cursor final tokens) :
    tokens = [] ∨ ∃ span rest, tokens = .ident "where" span :: rest := by
  obtain ⟨_, -, h⟩ := h.call
  rcases h.optional with ⟨holds, h⟩ | ⟨-, rfl, -⟩
  · obtain ⟨_, _, rest, rfl, hwhere, -⟩ := h.seq
    obtain ⟨_, mem, span, rfl⟩ := hwhere.word holds
    obtain rfl := List.mem_singleton.mp mem
    exact .inr ⟨span, rest, rfl⟩
  · exact .inl rfl

/-- A condition in front of the group that is found stands before it. -/
theorem where_before {before : List Token} {span : Span} {found : Nat}
    (start : tupleFields? (before ++ .ident "where" span :: rest)
      = tupleFieldsFrom before.length true false 0 (.ident "where" span :: rest))
    (h : tupleFields? (before ++ .ident "where" span :: rest) = some found) :
    fieldsBehindWhere (before ++ .ident "where" span :: rest) = true := by
  have le : before.length + 1 ≤ found := le_of_tupleFieldsFrom (start.symm.trans h)
  obtain ⟨more, rfl⟩ := Nat.exists_eq_add_of_le le
  rw [fieldsBehindWhere, h, Option.any_some, List.take_append, List.any_append]
  have : before.length + 1 + more - before.length = more + 1 := by omega
  rw [this, List.take_succ_cons, List.any_cons]
  exact Bool.or_true _

theorem tupleFields?_struct {span span' : Span} {name : String}
    (isPrelude : ∀ token ∈ prelude, isPrelude token = true)
    (h : Takes budget (.call .generics) cursor final tokens) :
    tupleFields? (prelude ++ .ident "struct" span :: .ident name span' :: tokens ++ rest)
      = tupleFieldsFrom (prelude ++ .ident "struct" span :: .ident name span' :: tokens).length
          true false 0 rest := by
  have length : prelude.length + 2 + tokens.length
      = (prelude ++ Token.ident "struct" span :: .ident name span' :: tokens).length := by
    simp only [List.length_append, List.length_cons]
    omega
  rw [tupleFields?, List.append_assoc, tupleFieldsFrom_prelude isPrelude, Nat.zero_add, ← length,
    ← tupleFieldsFrom_generics h]
  rfl

/-- The fields of a tuple struct are found where no body ends the struct. -/
theorem entry?_fields (word : itemKind? tokens = some .struct) (unbraced : body? tokens = none) :
    entry? .statement tokens = (tupleFields? tokens).map (·, .tupleField) := by
  rw [ entry?, word, unbraced]

/-- Without a body the fields are searched for, and found in front of any condition. -/
theorem fields_unbraced {before conditions fields : List Token}
    (word : itemKind? (before ++ (conditions ++ fields)) = some .struct)
    (start : ∀ rest, tupleFields? (before ++ rest)
      = tupleFieldsFrom before.length true false 0 rest)
    (hwhere : Takes budget (.call .whereClause) cursor final conditions)
    (plain : misleads .statement (before ++ (conditions ++ fields)) = false)
    (entry : entry? .statement (before ++ (conditions ++ fields)) = some (place, inner))
    (unbraced : body? (before ++ (conditions ++ fields)) = none) :
    conditions = [] ∧ (tupleFieldsFrom before.length true false 0 fields).map (·, .tupleField)
      = some (place, inner) := by
  rw [entry?_fields word unbraced] at entry
  obtain ⟨found, hfound, -⟩ := Option.map_eq_some_iff.mp entry
  rcases whereClause_cases hwhere with rfl | ⟨span, rest, rfl⟩
  · exact ⟨rfl, start fields ▸ entry⟩
  · have behind := where_before (start _) hfound
    rw [misleads, unbraced] at plain
    cases behind.symm.trans (Bool.or_eq_false_iff.mp plain).2

theorem agrees_struct (holds : (Grammar.word ["struct"]).holds head = true) :
    Agrees (steps [.skip 1, structBody]) head := by
  intro budget final core prelude place inner h isPrelude plain entry
  have kind := (itemKind?_prelude isPrelude).trans
    (itemKind?_of_word (some .struct) holds h fun _ _ => rfl)
  obtain ⟨after, _, _, rfl, hstruct, hbody⟩ := h.seq
  obtain ⟨_, mem, span, rfl⟩ := hstruct.word holds
  obtain rfl := List.mem_singleton.mp mem
  obtain ⟨behind, _, fields, rfl, hheader, hfields⟩ := hbody.seq
  obtain ⟨_, _, _, rfl, hname, hconditions⟩ := hheader.seq
  obtain ⟨name, span', rfl, -⟩ := hname.name
  obtain ⟨_, generics, conditions, rfl, hgenerics, hwhere⟩ := hconditions.seq
  generalize hbefore : prelude ++ .ident "struct" span :: .ident name span' :: generics = before
  have tokens_eq : prelude ++ ([.ident "struct" span] ++ ([.ident name span'] ++
      (generics ++ conditions) ++ fields)) = before ++ (conditions ++ fields) := by
    simp only [← hbefore, List.append_assoc, List.cons_append, List.nil_append]
  rw [tokens_eq] at kind plain entry ⊢
  have start : ∀ rest, tupleFields? (before ++ rest)
      = tupleFieldsFrom before.length true false 0 rest :=
    fun rest => hbefore ▸ tupleFields?_struct isPrelude hgenerics
  have tuple := fields_unbraced kind start hwhere plain entry
  have reaches : ∀ {target entry}, Reaches (choose [(.mark 0 [';'], .skip 1),
        (group .brace, body .namedField)]
      (steps [.within .parenthesis (.call (.members .tupleField)), .call .whereClause,
        expectMark [';']])) behind target entry →
      Reaches (steps [.skip 1, structBody]) head target entry :=
    fun r => .second hstruct.run (.second hheader.run r)
  rcases hfields.choose with ⟨look, rule, mem, holds, h, reach⟩ | ⟨h, reach⟩
  · simp only [List.mem_cons, Prod.mk.injEq, List.not_mem_nil, or_false] at mem
    rcases mem with ⟨rfl, rfl⟩ | ⟨rfl, rfl⟩
    · obtain ⟨joint, span, rfl, -⟩ := h.mark holds
      obtain ⟨-, found⟩ := tuple (by rw [← List.append_assoc, body?_punct])
      cases found
    · obtain ⟨content, span, rfl, rest⟩ := h.within
      rw [← List.append_assoc] at kind entry ⊢
      rw [entry?_body kind (body?_group ..)] at entry
      cases entry
      exact ⟨before ++ conditions, .brace, content, span, [], behind, rfl, rfl,
        reaches (reach .here), rest⟩
  · obtain ⟨_, _, _, rfl, hgroup, hrest⟩ := h.seq
    obtain ⟨content, span, rfl, -⟩ := hgroup.within
    obtain ⟨_, conditions', _, rfl, -, hsemicolon⟩ := hrest.seq
    obtain ⟨joint, span', rfl, -⟩ := hsemicolon.expectMark
    obtain ⟨rfl, found⟩ := tuple (by simp only [← List.append_assoc, body?_punct])
    cases found
    exact ⟨before, .parenthesis, content, span, conditions' ++ [Token.punct ';' joint span'],
      behind, rfl, rfl, reaches (reach (.first .here)), hfields.passes.rest⟩

-- ---------------------------------------------------------------------------
-- Members
-- ---------------------------------------------------------------------------

/-- What the walk enters in an item is read as a body. -/
theorem item_enters (h : Takes budget (.call .item) head final core)
    (isPrelude : ∀ token ∈ prelude, isPrelude token = true)
    (plain : misleads .statement (prelude ++ core) = false)
    (entry : entry? .statement (prelude ++ core) = some (place, inner)) :
    Enters (.call .item) head final (prelude ++ core) place inner := by
  obtain ⟨_, -, h⟩ := h.call
  obtain ⟨start, visibility, core, rfl, hvisibility, hitem⟩ := h.seq
  rw [← List.append_assoc] at plain entry ⊢
  have isPrelude' : ∀ token ∈ prelude ++ visibility, Placement.isPrelude token = true :=
    List.forall_mem_append.mpr ⟨isPrelude, isPrelude_visibility hvisibility⟩
  rcases hitem.choose with ⟨look, rule, mem, holds, h, reach⟩ | ⟨h, -⟩
  · have agrees : Agrees rule start := by
      simp only [List.mem_cons, Prod.mk.injEq, List.not_mem_nil, or_false] at mem
      rcases mem with ⟨rfl, rfl⟩ | ⟨rfl, rfl⟩ | ⟨rfl, rfl⟩ | ⟨rfl, rfl⟩ | ⟨rfl, rfl⟩ | ⟨rfl, rfl⟩ |
        ⟨rfl, rfl⟩ | ⟨rfl, rfl⟩ | ⟨rfl, rfl⟩ | ⟨rfl, rfl⟩ | ⟨rfl, rfl⟩ | ⟨rfl, rfl⟩ | ⟨rfl, rfl⟩
      · exact agrees_fn
      · exact agrees_struct holds
      · exact agrees_union holds
      · exact agrees_enum holds
      · exact agrees_trait
      · exact agrees_impl
      · exact agrees_mod holds
      · exact agrees_const holds
      · exact agrees_plain holds fun _ _ => rfl
      · exact agrees_typeAlias
      · exact agrees_plain holds fun _ _ => rfl
      · exact agrees_extern holds
      · exact agrees_plain holds fun _ _ => rfl
    exact (agrees h isPrelude' plain entry).mono fun r => .call (.second hvisibility.run (reach r))
  · exact h.fail.elim

theorem statement_enters (h : Takes budget (.call (.member .statement)) head final core)
    (isItem : itemStart.holds head = true)
    (isPrelude : ∀ token ∈ prelude, isPrelude token = true)
    (plain : misleads .statement (prelude ++ core) = false)
    (entry : entry? .statement (prelude ++ core) = some (place, inner)) :
    Enters (.call (.member .statement)) head final (prelude ++ core) place inner := by
  obtain ⟨_, -, h⟩ := h.call
  rcases h.ite with ⟨isLet, -⟩ | ⟨notLet, h⟩
  · obtain ⟨name, mem, span, tail, rest⟩ := Look.rest_of_word isLet
    obtain rfl := List.mem_singleton.mp mem
    obtain ⟨previous, _⟩ := head
    obtain rfl := rest
    cases isItem
  · rcases h.ite with ⟨_, h⟩ | ⟨fails, h⟩
    · exact (item_enters h isPrelude plain entry).mono fun r => .call (.no notLet (.yes isItem r))
    · cases isItem.symm.trans fails

theorem afterVariantName_attributes (h : Token.Attributes prelude) {name : String} {span : Span} :
    afterVariantName (prelude ++ .ident name span :: rest) = prelude.length + 1 := by
  induction h with
  | nil => rfl
  | cons _ ih =>
    rw [List.cons_append, List.cons_append, afterVariantName, ih, List.length_cons,
      List.length_cons]
    omega

/-- The members of the group that follows the name of a variant. -/
def fieldsOf? : Option Token → Option Member
  | some (.group .brace _ _) => some .namedField
  | some (.group .parenthesis _ _) => some .tupleField
  | _ => none

theorem entry?_variant (h : Token.Attributes prelude) {name : String} {span : Span} :
    entry? .variant (prelude ++ .ident name span :: rest)
      = (fieldsOf? rest.head?).map (prelude.length + 1, ·) := by
  have next : (prelude ++ .ident name span :: rest)[prelude.length + 1]? = rest.head? := by
    rw [List.getElem?_append_right (Nat.le_add_right _ _), Nat.add_sub_cancel_left,
      List.getElem?_cons_succ, List.head?_eq_getElem?]
  rw [ entry?, afterVariantName_attributes h, next]
  cases rest.head? with
  | none => rfl
  | some token =>
    cases token with
    | group delimiter => cases delimiter <;> rfl
    | ident | punct | literal => rfl

theorem variant_enters (h : Takes budget (.call (.member .variant)) head final core)
    (attributes : Token.Attributes prelude)
    (plain : misleads .variant (prelude ++ core) = false)
    (entry : entry? .variant (prelude ++ core) = some (place, inner)) :
    Enters (.call (.member .variant)) head final (prelude ++ core) place inner := by
  obtain ⟨_, -, h⟩ := h.call
  obtain ⟨start, _, _, rfl, hvisibility, hnamed⟩ := h.seq
  obtain ⟨behind, _, _, rfl, hname, hcontent⟩ := hnamed.seq
  obtain ⟨name, span, rfl, -⟩ := hname.name
  obtain ⟨last, fields, value, rfl, hfields, hvalue⟩ := hcontent.seq
  rcases hvisibility.visibility with rfl | ⟨span', rfl | ⟨content, span'', rfl⟩⟩
  · have split : prelude ++ ([] ++ ([.ident name span] ++ (fields ++ value)))
        = prelude ++ .ident name span :: (fields ++ value) := rfl
    rw [split] at entry ⊢
    rw [entry?_variant attributes] at entry
    rcases hfields.choose with ⟨look, rule, mem, holds, h, reach⟩ | ⟨h, -⟩
    · have enters : ∀ delimiter kind, rule = .within delimiter (Grammar.content kind) →
          (∃ content span', fields = [.group delimiter content span']) ∧
          Enters (.call (.member .variant)) head final
            (prelude ++ .ident name span :: (fields ++ value)) (prelude.length + 1) kind := by
        rintro delimiter kind rfl
        obtain ⟨content, span', rfl, -⟩ := h.within
        have rest : behind.rest = .group delimiter content span' :: (value ++ final.rest) :=
          hcontent.passes.rest
        exact ⟨⟨content, span', rfl⟩, prelude ++ [.ident name span], delimiter, content, span',
          value, behind, (List.append_cons ..).trans rfl, List.length_append,
          .call (.second hvisibility.run (.second hname.run (.first (reach .here)))), rest⟩
      simp only [List.mem_cons, Prod.mk.injEq, List.not_mem_nil, or_false] at mem
      rcases mem with ⟨rfl, rfl⟩ | ⟨rfl, rfl⟩
      · obtain ⟨⟨content, span', rfl⟩, enters⟩ := enters .brace .namedField rfl
        cases entry
        exact enters
      · obtain ⟨⟨content, span', rfl⟩, enters⟩ := enters .parenthesis .tupleField rfl
        cases entry
        exact enters
    · obtain ⟨rfl, -⟩ := h.done
      rcases hvalue.optional with ⟨holds, h⟩ | ⟨-, rfl, -⟩
      · obtain ⟨_, _, _, rfl, hequals, -⟩ := h.seq
        obtain ⟨joint, span', rfl, -⟩ := hequals.mark holds
        cases entry
      · cases entry
  · rw [List.singleton_append, entry?_variant attributes] at entry
    cases entry
  · cases (holds_of_somewhere (somewhere_append plain)).symm.trans rfl

-- ---------------------------------------------------------------------------
-- Associated items
-- ---------------------------------------------------------------------------

theorem entry?_assocItem (entry : entry? .assocItem tokens = some (place, inner)) :
    itemKind? tokens = some .fn ∧ body? tokens = some place ∧ inner = .statement := by
  rw [ entry?] at entry
  split at entry
  · next word found =>
    cases entry
    exact ⟨word, found, rfl⟩
  · cases entry

theorem itemKind?_group (delimiter : Delimiter) (content : List Token) (span : Span) :
    itemKind? (.group delimiter content span :: rest) = itemKind? rest := by
  rw [itemKind?, itemKindAfter, Bool.and_false, if_neg Bool.false_ne_true]
  · rfl
  · nofun

/-- Nothing in the arguments of a macro tells a kind. -/
theorem itemKind?_arguments (h : Takes budget (choose
      [(group .brace, steps [.skip 1, eatMark [';']]),
        (.token 0 .anyGroup, steps [.skip 1, expectMark [';']])]
      (.fail .macroArguments)) head final core) : itemKind? core = none := by
  rcases h.ite with ⟨holds, h⟩ | ⟨-, h⟩
  · obtain ⟨_, _, _, rfl, hgroup, hsemicolon⟩ := h.seq
    obtain ⟨delimiter, content, span, rfl⟩ := hgroup.anyGroup (Look.anyGroup_of_group holds)
    rw [List.singleton_append, itemKind?_group]
    rcases hsemicolon.eatMark with rfl | ⟨joint, span, rfl⟩ <;> rfl
  · rcases h.ite with ⟨holds, h⟩ | ⟨-, h⟩
    · obtain ⟨_, _, _, rfl, hgroup, hsemicolon⟩ := h.seq
      obtain ⟨delimiter, content, span, rfl⟩ := hgroup.anyGroup holds
      rw [List.singleton_append, itemKind?_group]
      obtain ⟨joint, span, rfl, -⟩ := hsemicolon.expectMark
      rfl
    · exact h.fail.elim

/-- The call of a macro has no kind, unless its path starts with a soft word. -/
theorem itemKind?_call (h : Takes budget (steps [.call (.path .expression), expectMark ['!'],
      choose
        [(group .brace, steps [.skip 1, eatMark [';']]),
          (.token 0 .anyGroup, steps [.skip 1, expectMark [';']])]
        (.fail .macroArguments)]) head final core)
    (plain : misleads .assocItem core = false) : itemKind? core ≠ some .fn := by
  obtain ⟨_, path, _, rfl, hpath, hrest⟩ := h.seq
  obtain ⟨_, _, arguments, rfl, hmark, harguments⟩ := hrest.seq
  obtain ⟨joint, span, rfl, -⟩ := hmark.expectMark
  obtain ⟨_, -, hpath⟩ := hpath.call
  obtain ⟨_, global, _, rfl, hglobal, hsegments⟩ := hpath.seq
  obtain ⟨_, segment, more, rfl, hsegment, hmore⟩ := hsegments.seq
  obtain ⟨name, span', rfl, isName⟩ := hsegment.pathSegment
  have skipped : ∀ rest, itemKind? (global ++ rest) = itemKind? rest := by
    intro rest
    rcases hglobal.colons with rfl | ⟨span₁, joint₂, span₂, rfl⟩ <;> rfl
  simp only [List.append_assoc] at plain ⊢
  rw [skipped]
  by_cases soft : name ∈ softWords
  · have plain := holds_of_somewhere (somewhere_append plain)
    have contains : softWords.contains name = true := List.contains_iff_mem.mpr soft
    rcases hmore.pathTail with rfl | ⟨span₁, joint₂, span₂, rest, rfl⟩
    · have arguments := itemKind?_arguments harguments
      simp only [softWords, List.mem_cons, List.not_mem_nil, or_false] at soft
      rcases soft with rfl | rfl | rfl
      · exact nofun
      · exact fun fn => nomatch arguments.symm.trans fn
      · exact fun fn => nomatch arguments.symm.trans fn
    · cases plain.symm.trans (Bool.and_eq_true_iff.mpr ⟨contains, rfl⟩)
  · rw [List.singleton_append, itemKind?_name (.inl isName) soft]
    exact nofun

theorem assocItem_enters (h : Takes budget (.call (.member .assocItem)) head final core)
    (isPrelude : ∀ token ∈ prelude, isPrelude token = true)
    (plain : misleads .assocItem (prelude ++ core) = false)
    (entry : entry? .assocItem (prelude ++ core) = some (place, inner)) :
    Enters (.call (.member .assocItem)) head final (prelude ++ core) place inner := by
  obtain ⟨kind, found, rfl⟩ := entry?_assocItem entry
  obtain ⟨_, -, h⟩ := h.call
  obtain ⟨_, visibility, _, rfl, hvisibility, hrest⟩ := h.seq
  obtain ⟨start, defaults, core, rfl, hdefault, hitem⟩ := hrest.seq
  rw [← List.append_assoc, ← List.append_assoc] at kind found plain ⊢
  have isPrelude' : ∀ token ∈ prelude ++ visibility ++ defaults,
      Placement.isPrelude token = true :=
    List.forall_mem_append.mpr ⟨List.forall_mem_append.mpr
      ⟨isPrelude, isPrelude_visibility hvisibility⟩, isPrelude_eatWord (by decide) hdefault⟩
  rcases hitem.choose with ⟨look, rule, mem, holds, h, reach⟩ | ⟨h, -⟩
  · have reaches : ∀ {target entry}, Reaches rule start target entry →
        Reaches (.call (.member .assocItem)) head target entry :=
      fun r => .call (.second hvisibility.run (.second hdefault.run (reach r)))
    rw [itemKind?_prelude isPrelude'] at kind
    simp only [List.mem_cons, Prod.mk.injEq, List.not_mem_nil, or_false] at mem
    rcases mem with ⟨rfl, rfl⟩ | ⟨rfl, rfl⟩ | ⟨rfl, rfl⟩ | ⟨rfl, rfl⟩
    · obtain ⟨_, -, h⟩ := h.call
      exact (enters_block h rfl found).mono fun r => reaches (.call r)
    · obtain ⟨_, -, h⟩ := h.call
      obtain ⟨_, _, _, rfl, htype, -⟩ := h.seq
      obtain ⟨span, rfl⟩ := htype.expectWord
      cases kind
    · obtain ⟨_, before, _, rfl, -, h, -⟩ := h.last
      obtain ⟨joint, span, rfl, -⟩ := Takes.expectMark (c := ';') h
      rw [← List.append_assoc, body?_punct] at found
      cases found
    · exact absurd kind (itemKind?_call h (somewhere_append plain))
  · exact h.fail.elim

-- ---------------------------------------------------------------------------
-- Every kind of member
-- ---------------------------------------------------------------------------

/-- The group that the walk enters in a member that does not mislead it is a body. -/
theorem member_enters {kind : Member} (reads : kind.Reads budget cursor head final)
    (passes : cursor.Passes tokens final) (isItem : kind.isItem head = true)
    (plain : misleads kind tokens = false) (entry : entry? kind tokens = some (place, inner)) :
    Enters (.call (.member kind)) head final tokens place inner := by
  obtain ⟨attributes, hattributes⟩ := reads.attributes.takes
  obtain ⟨core, h⟩ := reads.element.takes
  obtain rfl := passes.unique (hattributes.passes.trans h.passes)
  have attributes := hattributes.attributes
  cases kind with
  | statement => exact statement_enters h isItem (isPrelude_attributes attributes) plain entry
  | variant => exact variant_enters h attributes plain entry
  | assocItem => exact assocItem_enters h (isPrelude_attributes attributes) plain entry
  | namedField | tupleField => cases entry

end Placement

end AliasExpansion
