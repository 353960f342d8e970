-- SUMMARY: Sites of a substitution, and a stream with its first few sites replaced.
import AliasExpansion.Proofs.Token.Atoms
import AliasExpansion.Proofs.Traversal.Place
import AliasExpansion.Substitution.Basic

/-!
# Sites

A site is an atom that substitution replaces: an identifier bound to a value, or a string literal
that holds a placeholder. Sites are counted from left to right through all groups.
`rewriteFirst values count tokens` has the first `count` sites replaced at once and everything else
as it was. It is a plain recursion over the tokens, with no cursor and no stack; the walk is
compared with it in `Proofs/Substitution/Stepwise`.
-/

namespace AliasExpansion

namespace Token

/-- The atoms inside groups are among the atoms of the whole stream. -/
theorem atomsAll_subset_plugAll (enclosures : List Enclosure) (content : List Token) :
    atomsAll content ⊆ atomsAll (Enclosure.plugAll enclosures content) := by
  induction enclosures generalizing content with
  | nil => exact fun _ h => h
  | cons enclosure outer ih =>
    intro atom h
    apply ih (enclosure.plug content)
    simp [Enclosure.plug, atomsAll, atoms, h]

/-- Every string literal at any depth has a content. -/
def StringsDecode (tokens : List Token) : Prop :=
  ∀ lit, .literal lit ∈ atomsAll tokens → lit.isString → ∃ text, lit.content = .ok text

end Token

namespace Substitution

variable (values : Table String Value)

/-- The note of a replacement and the tokens that are put in; nothing for an atom that stays. -/
def change? : Token → Option (Replacement × List Token)
  | .ident name span =>
    (values.find? name).map fun value =>
      ({ before := name, after := value.render, span }, value.tokens)
  | .literal lit =>
    match lit.content with
    | .ok content =>
      match Placeholder.fill values content with
      | .ok filled =>
        if lit.isString && filled != content then
          let changed := lit.withContent filled
          some ({ before := lit.text, after := changed.text, span := lit.span },
            [.literal changed])
        else none
      | .error _ => none
    | .error _ => none
  | _ => none

/-- The replacements to make, in order. -/
def sites (tokens : List Token) : List Replacement :=
  (Token.atomsAll tokens).filterMap fun atom => (change? values atom).map Prod.fst

mutual

/-- What a tree becomes when the first `count` sites in it are replaced. -/
def rewriteToken : (count : Nat) → Token → List Token
  | count, .group delimiter content span => [.group delimiter (rewriteFirst count content) span]
  | 0, token => [token]
  | _ + 1, token =>
    match change? values token with
    | some (_, replacement) => replacement
    | none => [token]

/-- The tokens with the first `count` sites replaced. -/
def rewriteFirst : (count : Nat) → List Token → List Token
  | _, [] => []
  | count, token :: rest =>
    rewriteToken count token ++ rewriteFirst (count - (sites values [token]).length) rest

end

/-- The tokens with every site replaced. -/
def rewriteAll (tokens : List Token) : List Token :=
  rewriteFirst values (sites values tokens).length tokens

-- ---------------------------------------------------------------------------
-- Sites of compound token lists
-- ---------------------------------------------------------------------------

@[simp] theorem sites_nil : sites values [] = [] := rfl

@[simp] theorem sites_append (left right : List Token) :
    sites values (left ++ right) = sites values left ++ sites values right := by
  simp [sites]

theorem sites_cons (token : Token) (rest : List Token) :
    sites values (token :: rest) = sites values [token] ++ sites values rest :=
  sites_append values [token] rest

theorem length_sites_cons (token : Token) (rest : List Token) :
    (sites values (token :: rest)).length =
      (sites values [token]).length + (sites values rest).length := by
  rw [sites_cons, List.length_append]

@[simp] theorem sites_group (delimiter : Delimiter) (content : List Token) (span : Span) :
    sites values [.group delimiter content span] = sites values content := by
  simp [sites, Token.atomsAll, Token.atoms]

/-- An atom is one site or none. -/
theorem sites_atom {token : Token} (hatom : token.isGroup = false) :
    sites values [token] = ((change? values token).map Prod.fst).toList := by
  simp only [sites, Token.atomsAll_singleton hatom]
  cases hchange : change? values token <;> simp [hchange]

-- ---------------------------------------------------------------------------
-- Rewriting compound token lists
-- ---------------------------------------------------------------------------

@[simp] theorem rewriteFirst_nil (count : Nat) : rewriteFirst values count [] = [] := by
  rw [rewriteFirst]

mutual

theorem rewriteToken_zero (token : Token) : rewriteToken values 0 token = [token] := by
  cases token with
  | group delimiter content span => rw [rewriteToken, rewriteFirst_zero content]
  | _ => rw [rewriteToken]; nofun

/-- Nothing is changed before the first site. -/
theorem rewriteFirst_zero (tokens : List Token) : rewriteFirst values 0 tokens = tokens := by
  cases tokens with
  | nil => rw [rewriteFirst]
  | cons token rest =>
    rw [rewriteFirst, rewriteToken_zero token, Nat.zero_sub, rewriteFirst_zero rest]
    rfl

end

mutual

theorem rewriteToken_of_le {count : Nat} (token : Token)
    (h : (sites values [token]).length ≤ count) :
    rewriteToken values count token =
      rewriteToken values (sites values [token]).length token := by
  cases token with
  | group delimiter content span =>
    rw [sites_group] at h ⊢
    rw [rewriteToken, rewriteToken, rewriteFirst_of_le content h]
    rfl
  | ident | punct | literal =>
    rw [sites_atom values rfl] at h ⊢
    cases count with
    | zero => simp only [Nat.le_zero] at h; rw [h]
    | succ count =>
      cases hchange : change? values _ <;> simp [rewriteToken, hchange]

/-- Counts beyond the last site change nothing more. -/
theorem rewriteFirst_of_le {count : Nat} (tokens : List Token)
    (h : (sites values tokens).length ≤ count) :
    rewriteFirst values count tokens = rewriteAll values tokens := by
  cases tokens with
  | nil => rw [rewriteAll, rewriteFirst, rewriteFirst]
  | cons token rest =>
    have hlength := length_sites_cons values token rest
    have htoken : (sites values [token]).length ≤ count := by omega
    have hrest : (sites values rest).length ≤ count - (sites values [token]).length := by omega
    rw [rewriteAll, rewriteFirst, rewriteFirst, hlength, rewriteToken_of_le token htoken,
      rewriteToken_of_le token (Nat.le_add_right _ _), Nat.add_sub_cancel_left,
      rewriteFirst_of_le rest hrest]
    rfl

end

theorem rewriteFirst_append (count : Nat) (left right : List Token) :
    rewriteFirst values count (left ++ right) =
      rewriteFirst values count left ++
        rewriteFirst values (count - (sites values left).length) right := by
  induction left generalizing count with
  | nil => simp
  | cons token rest ih =>
    rw [List.cons_append, rewriteFirst, ih, rewriteFirst, List.append_assoc,
      length_sites_cons values token rest, Nat.sub_sub]

@[simp] theorem rewriteAll_nil : rewriteAll values [] = [] := rewriteFirst_nil values _

theorem rewriteAll_append (left right : List Token) :
    rewriteAll values (left ++ right) = rewriteAll values left ++ rewriteAll values right := by
  rw [rewriteAll, sites_append, List.length_append, rewriteFirst_append, Nat.add_sub_cancel_left,
    rewriteFirst_of_le values left (Nat.le_add_right _ _)]
  rfl

theorem rewriteAll_group (delimiter : Delimiter) (content : List Token) (span : Span) :
    rewriteAll values [.group delimiter content span] =
      [.group delimiter (rewriteAll values content) span] := by
  rw [rewriteAll, rewriteFirst, rewriteToken, sites_group, rewriteFirst_nil, List.append_nil]
  rfl

/-- An atom that is no site stays. -/
theorem rewriteAll_of_change?_none {token : Token} (hatom : token.isGroup = false)
    (h : change? values token = none) : rewriteAll values [token] = [token] := by
  rw [rewriteAll, sites_atom values hatom, h]
  exact rewriteFirst_zero values [token]

theorem rewriteAll_of_change?_some {token : Token} (hatom : token.isGroup = false)
    {note : Replacement} {replacement : List Token}
    (h : change? values token = some (note, replacement)) :
    rewriteAll values [token] = replacement := by
  rw [rewriteAll, sites_atom values hatom, h, rewriteFirst, rewriteFirst_nil, List.append_nil]
  cases token with
  | group => cases hatom
  | ident | punct | literal =>
    simp only [Option.map_some, Option.toList_some, List.length_singleton, rewriteToken, h]

-- ---------------------------------------------------------------------------
-- Places
-- ---------------------------------------------------------------------------

/-- A group around a place of the walk, with the tokens before it rewritten. -/
def walked (enclosure : Enclosure) : Enclosure :=
  { enclosure with before := rewriteAll values enclosure.before }

/-- The number of sites before a place inside groups, innermost first, in the outer frames. -/
def sitesBefore : List Enclosure → Nat
  | [] => 0
  | enclosure :: outer => sitesBefore outer + (sites values enclosure.before).length

/-- The sites after the groups around a place. -/
def sitesAfter : List Enclosure → List Replacement
  | [] => []
  | enclosure :: outer => sites values enclosure.after ++ sitesAfter outer

theorem sites_plug (enclosure : Enclosure) (content : List Token) :
    sites values (enclosure.plug content) =
      sites values enclosure.before ++ sites values content ++ sites values enclosure.after := by
  rw [Enclosure.plug, sites_append, sites_cons, sites_group, List.append_assoc]

/-- Rewriting up to a place inside a group rewrites what stands before the group, and the group's
    content up to the place. -/
theorem rewriteFirst_plug (enclosure : Enclosure) (content : List Token) {count : Nat}
    (h : count ≤ (sites values content).length) :
    rewriteFirst values ((sites values enclosure.before).length + count)
        (enclosure.plug content) =
      (walked values enclosure).plug (rewriteFirst values count content) := by
  rw [Enclosure.plug, rewriteFirst_append, Nat.add_sub_cancel_left,
    rewriteFirst_of_le values enclosure.before (Nat.le_add_right _ _), rewriteFirst, rewriteToken,
    sites_group, Nat.sub_eq_zero_of_le h, rewriteFirst_zero]
  rfl

theorem rewriteFirst_plugAll (enclosures : List Enclosure) (content : List Token) {count : Nat}
    (h : count ≤ (sites values content).length) :
    rewriteFirst values (sitesBefore values enclosures + count)
        (Enclosure.plugAll enclosures content) =
      Enclosure.plugAll (enclosures.map (walked values)) (rewriteFirst values count content) := by
  induction enclosures generalizing content count with
  | nil => simp [sitesBefore]
  | cons enclosure outer ih =>
    have hplug : (sites values enclosure.before).length + count ≤
        (sites values (enclosure.plug content)).length := by
      rw [sites_plug, List.length_append, List.length_append]
      omega
    rw [sitesBefore, Nat.add_assoc, Enclosure.plugAll_cons, ih _ hplug,
      rewriteFirst_plug values enclosure content h]
    rfl

end Substitution

end AliasExpansion
