-- SUMMARY: The literals of a source are accounted for by their own failures.
import AliasExpansion.Proofs.Failures.Values
import AliasExpansion.Proofs.Lexing.Scan

/-!
# Literals of a source

The literals of a source may fail to decode, each for a reason of its own. Beyond that it is known
of them that integers are lexed without a sign.
-/

namespace AliasExpansion

namespace Lexeme

variable {cs : List Char} {n : Nat}

/-- No minus sign is among the characters that the shape takes. -/
def Unsigned (shape : Shape) : Prop :=
  ∀ cs n, shape cs = some n → '-' ∉ cs.take n

theorem unsigned_run {p : Char → Bool} (h : p '-' = false) (cs : List Char) :
    '-' ∉ cs.take (run p cs) := by
  rw [run, ← List.prefix_iff_eq_take.mp (List.takeWhile_prefix p)]
  intro mem
  have hp := List.all_eq_true.mp List.all_takeWhile '-' mem
  rw [h] at hp
  cases hp

theorem unsigned_decimalShape : Unsigned decimalShape := by
  intro cs n h
  obtain ⟨c, rest, rfl, digit, rfl⟩ := decimalShape_eq_some.mp h
  rw [Nat.add_comm, List.take_succ_cons, List.mem_cons, not_or]
  refine ⟨?_, unsigned_run (by decide) rest⟩
  rintro rfl
  revert digit
  decide

theorem unsigned_prefixedShape {mark : Char} {isDigit : Char → Bool} (hmark : '-' ≠ mark)
    (h : ('-' == '_' || isDigit '-') = false) : Unsigned (prefixedShape mark isDigit) := by
  intro cs n taken
  obtain ⟨rest, rfl, rfl⟩ := prefixedShape_eq_some taken
  rw [List.take_succ_cons, List.take_succ_cons, List.mem_cons, List.mem_cons, not_or, not_or]
  exact ⟨by decide, hmark, unsigned_run (p := fun d => d == '_' || isDigit d) h rest⟩

theorem unsigned_suffix (cs : List Char) : '-' ∉ cs.take (Literal.suffixLength cs) := by
  cases cs with
  | nil => exact List.not_mem_nil
  | cons sign rest =>
    rw [Literal.suffixLength]
    split
    · next letter =>
      split
      · next width hwidth =>
        have front := List.isPrefixOf_iff_prefix.mp 
          (List.find?_some (p := fun width : List Char => width.isPrefixOf rest) hwidth)
        have free : ∀ width ∈ Literal.widths, '-' ∉ width := by decide
        rw [List.take_succ_cons, ← List.prefix_iff_eq_take.mp front, List.mem_cons, not_or]
        refine ⟨?_, free width (List.mem_of_find?_eq_some hwidth)⟩
        rintro rfl
        cases letter
      · exact List.not_mem_nil
    · exact List.not_mem_nil

/-- An integer is lexed without a sign. -/
theorem unsigned_intShape : Unsigned intShape := by
  intro cs n h
  obtain ⟨m, k, hdigits, hsuffix, rfl⟩ := andThen_eq_some h
  cases hsuffix
  obtain ⟨shape, mem, hdigits⟩ := firstOf_eq_some hdigits
  have hshape : Unsigned shape := by
    simp only [List.mem_cons, List.not_mem_nil, or_false] at mem
    rcases mem with rfl | rfl | rfl | rfl
    · exact unsigned_prefixedShape (by decide) (by decide)
    · exact unsigned_prefixedShape (by decide) (by decide)
    · exact unsigned_prefixedShape (by decide) (by decide)
    · exact unsigned_decimalShape
  rw [List.take_add, List.mem_append, not_or]
  exact ⟨hshape cs m hdigits, unsigned_suffix _⟩

theorem unsigned_of_scan {skip : Nat} {span : Span} {lexemes : List Lexeme}
    (h : scanAfter skip span cs = .ok lexemes) {lexeme : Lexeme} (mem : lexeme ∈ lexemes)
    (hkind : lexeme.kind = .int) : '-' ∉ lexeme.text := by
  obtain ⟨cs, n, first, text⟩ := first?_of_mem_scanAfter h lexeme mem
  rw [hkind] at first
  rw [text]
  exact unsigned_intShape cs n (atomShape_of_first? first (by decide))

/-- The literals that a lexeme stands for are unsigned if the lexeme is. -/
theorem unsigned_tokens {lexeme : Lexeme} (h : lexeme.kind = .int → '-' ∉ lexeme.text)
    {lit : Literal} (mem : .literal lit ∈ Token.atomsAll lexeme.tokens) (hkind : lit.kind = .int) :
    '-' ∉ lit.text.toList := by
  obtain ⟨kind, text, span, joint⟩ := lexeme
  cases kind with
  | int =>
    simp only [tokens, Token.atomsAll, Token.atoms, List.append_nil, List.mem_singleton] at mem
    cases mem
    rw [String.toList_ofList]
    exact h rfl
  | comment | blank | opening | closing => cases mem
  | ident | lifetime =>
    simp [tokens, Token.atomsAll, Token.atoms] at mem
  | float =>
    simp only [tokens, Token.atomsAll, Token.atoms, List.append_nil, List.mem_singleton] at mem
    cases mem
    cases hkind
  | char | string | rawString =>
    simp only [tokens, literal, Token.atomsAll, Token.atoms, List.append_nil,
      List.mem_singleton] at mem
    cases mem
    dsimp only at hkind
    split at hkind <;> cases hkind
  | outerDoc | innerDoc =>
    simp [tokens, Token.docGroup, Token.atomsAll, Token.atoms] at mem
    rw [mem] at hkind
    cases hkind
  | punct =>
    cases text with
    | nil => cases mem
    | cons c rest => simp [tokens, Token.atomsAll, Token.atoms] at mem

end Lexeme

namespace Token

/-- Reasons for which a literal of the tokens has no value, or no bytes. -/
def Failing (tokens : List Token) (error : DecodeError) : Prop :=
  ∃ lit, .literal lit ∈ atomsAll tokens ∧ lit.Fails error

/-- The literals of a source are accounted for by their own failures. -/
theorem accounted_of_read {known : DecodeError → Prop} {source : String} {tokens : List Token}
    (h : read source = .ok tokens) (hknown : ∀ error, Failing tokens error → known error) :
    Accounted known tokens := by
  intro lit mem
  refine ⟨fun error hfails => hknown error ⟨lit, mem, hfails⟩, fun hkind => ?_⟩
  obtain ⟨lexemes, hscan, hassemble⟩ := Outcome.bind_eq_ok.mp h
  have atoms := assemble_atoms hassemble
  simp only [stackAtoms, List.reverse_nil, atomsAll_nil, List.nil_append] at atoms
  rw [atoms] at mem
  obtain ⟨lexeme, hlexeme, mem⟩ := List.mem_flatMap.mp mem
  exact Lexeme.unsigned_tokens (Lexeme.unsigned_of_scan hscan hlexeme) mem hkind

end Token

end AliasExpansion
