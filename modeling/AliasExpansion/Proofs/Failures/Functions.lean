-- SUMMARY: The built-in functions fail with diagnostics, apart from known failures to decode.
import AliasExpansion.Function.Library
import AliasExpansion.Proofs.Failures.Values
import AliasExpansion.Proofs.Resolution.Assignment

/-!
# Failures of functions

What a built-in overload fails with when its arguments are accounted for, and that its result is
accounted for again. The types of the arguments matter for one overload only: joining the texts of
integers gives an integer because each of them is a numeral. The joined numeral may be too long to
be read, so `concat` needs that this is known. `hash` needs a key that is not too long.
-/

namespace AliasExpansion

-- ---------------------------------------------------------------------------
-- Keys
-- ---------------------------------------------------------------------------

theorem length_toList_loop (bytes : ByteArray) (i : Nat) (taken : List UInt8) :
    (ByteArray.toList.loop bytes i taken).length = taken.length + (bytes.size - i) := by
  fun_induction ByteArray.toList.loop bytes i taken with
  | case1 i taken h ih => rw [ih, List.length_cons]; omega
  | case2 i taken h => rw [List.length_reverse]; omega

theorem length_toUTF8_ofList {cs : List Char} (h : ∀ c ∈ cs, c.utf8Size = 1) :
    (String.ofList cs).toUTF8.toList.length = cs.length := by
  have hsize : (String.ofList cs).utf8ByteSize = cs.length := by
    induction cs with
    | nil => rfl
    | cons c rest ih =>
      rw [← List.singleton_append, String.ofList_append, String.utf8ByteSize_append,
        ih fun c mem => h c (List.mem_cons_of_mem _ mem), ← String.singleton_eq_ofList,
        String.utf8ByteSize_singleton, h c List.mem_cons_self, List.length_append]
      rfl
  rw [ByteArray.toList, length_toList_loop, List.length_nil, Nat.zero_add, Nat.sub_zero, ← hsize]
  rfl

/-- An integer is written in characters of one byte each. -/
theorem length_toUTF8_toString (seed : Int) :
    (toString seed).toUTF8.toList.length = (toString seed).length := by
  have hdigits (n : Nat) : ∀ c ∈ Nat.toDigits 10 n, c.utf8Size = 1 := fun c mem =>
    Text.forall_isDigit (P := fun c => c.utf8Size = 1) (by decide)
      ((Text.IsDecimalNumeral.toDigits n).digits c mem)
  cases seed with
  | ofNat n =>
    rw [Text.toString_ofNat, length_toUTF8_ofList (hdigits n), String.length_ofList]
  | negSucc n =>
    rw [Text.toString_negSucc,
      length_toUTF8_ofList (List.forall_mem_cons.mpr ⟨rfl, hdigits (n + 1)⟩), String.length_ofList]

/-- An integer of at most as many characters as a key may have bytes is a key. -/
theorem Library.hashText_ok {seed : Int} (h : (toString seed).length ≤ Blake2b.maxKeyBytes)
    (text : String) : ∃ digest, hashText (toString seed) text = .ok digest := by
  have short : (toString seed).toList.countP Char.isDigit ≤ Text.digitLimit := by
    refine Nat.le_trans List.countP_le_length (Nat.le_trans h ?_)
    decide
  rw [hashText, if_neg (Nat.not_lt.mpr short)]
  dsimp only
  rw [if_neg (Nat.not_lt.mpr (length_toUTF8_toString seed ▸ h))]
  exact ⟨_, rfl⟩

variable {known : DecodeError → Prop} {key : String}

/-- From accounted arguments of its parameter types, the overload computes an accounted result. -/
def Overload.Accounted (known : DecodeError → Prop) (key : String) (overload : Overload) : Prop :=
  ∀ span values, values ≠ [] →
    values.map Value.type = overload.signature.parameterTypes values.length →
    (∀ value ∈ values, value.Accounted known) →
    Traced known (Value.Accounted known) (overload.compute key span values)

/-- An overload that computes its result from one argument. -/
theorem Overload.Accounted.of_first {overload : Overload}
    {f : String → Option Span → Value → Except Error Value}
    (hcompute : overload.compute = Library.onFirst f)
    (hf : ∀ span value, value.Accounted known →
      Traced known (Value.Accounted known) (f key span value)) :
    overload.Accounted known key := by
  intro span values hvalues _ haccounted
  rw [hcompute]
  cases values with
  | nil => exact absurd rfl hvalues
  | cons value rest => exact hf span value (haccounted value List.mem_cons_self)

namespace Library

theorem traced_textOf {value : Value} (h : value.Accounted known) :
    Traced known (fun text => value.text = .ok text) (textOf value) :=
  .of_decode fun _ => h.text_error

theorem traced_textsOf {values : List Value} (h : ∀ value ∈ values, value.Accounted known) :
    Traced known (fun _ => True) (values.mapM textOf) :=
  (Traced.mapM fun value mem => (traced_textOf (h value mem)).imp fun _ _ => trivial).imp
    fun _ _ => trivial

theorem traced_identifier (text : String) (fault : String → EvaluationFault)
    (span : Option Span) : Traced known (Value.Accounted known) (identifier text fault span) := by
  unfold identifier
  split
  · exact Value.accounted_ofName _ _
  · exact .error rfl

theorem traced_hashValue (hkey : ∀ text, ∃ digest, hashText key text = .ok digest) {value : Value}
    (h : value.Accounted known) : Traced known (fun _ => True) (hashValue key value) := by
  refine (traced_textOf h).bind fun text _ _ => ?_
  dsimp only
  split
  · next lone => exact .inr ⟨.unencodable, h.unencodable lone, rfl⟩
  · obtain ⟨digest, hdigest⟩ := hkey text
    rw [hdigest]
    exact trivial

theorem accounted_ofTexts {values : List Value} (h : ∀ value ∈ values, value.Accounted known)
    (text : String) : (ofTexts values text).Accounted known := by
  refine Value.accounted_ofText _ _ fun lone => ?_
  obtain ⟨value, mem, lone⟩ := List.any_eq_true.mp lone
  exact (h value mem).unencodable lone

-- ---------------------------------------------------------------------------
-- Joined texts
-- ---------------------------------------------------------------------------

theorem toList_concat (texts : List String) :
    (concat texts).toList = (texts.map String.toList).flatten := by
  rw [concat, String.toList_intercalate]
  generalize texts.map String.toList = parts
  induction parts with
  | nil => rfl
  | cons part rest ih =>
    cases rest with
    | nil => simp [List.intercalate]
    | cons next rest => simpa [List.intercalate] using ih

/-- Numerals that follow each other are a numeral. -/
theorem numeral_concat {texts : List String} (hne : texts ≠ [])
    (h : ∀ text ∈ texts, Text.IsDecimalNumeral text.toList) :
    Text.IsDecimalNumeral (concat texts).toList := by
  rw [toList_concat]
  induction texts with
  | nil => exact absurd rfl hne
  | cons text rest ih =>
    rw [List.map_cons, List.flatten_cons]
    have hfirst := h text List.mem_cons_self
    by_cases hrest : rest = []
    · rw [hrest, List.map_nil, List.flatten_nil, List.append_nil]
      exact hfirst
    · exact hfirst.append (ih hrest fun text mem => h text (List.mem_cons_of_mem _ mem))

/-- The texts of integers are numerals, one for each. -/
theorem traced_numerals {values : List Value} (h : ∀ value ∈ values, value.Accounted known)
    (htypes : ∀ value ∈ values, value.type = .int) :
    Traced known (fun texts => texts.length = values.length ∧
      ∀ text ∈ texts, Text.IsDecimalNumeral text.toList) (values.mapM textOf) := by
  induction values with
  | nil => exact ⟨rfl, nofun⟩
  | cons value rest ih =>
    rw [List.mapM_cons]
    have hvalue := h value List.mem_cons_self
    refine (traced_textOf hvalue).bind fun text _ htext => ?_
    have hnumeral := hvalue.text_numeral (htypes value List.mem_cons_self) htext
    refine (ih (fun value mem => h value (List.mem_cons_of_mem _ mem)) fun value mem =>
      htypes value (List.mem_cons_of_mem _ mem)).bind fun texts _ htexts => ?_
    exact ⟨congrArg Nat.succ htexts.1, List.forall_mem_cons.mpr ⟨hnumeral, htexts.2⟩⟩

-- ---------------------------------------------------------------------------
-- Overloads
-- ---------------------------------------------------------------------------

theorem accounted_textFunction (name : String) (transform : List Char → List Char) :
    ∀ overload ∈ textFunction name transform, overload.Accounted known key := by
  refine List.forall_mem_cons.mpr ⟨.of_first rfl fun span value h => ?_,
    List.forall_mem_singleton.mpr (.of_first rfl fun span value h => ?_)⟩
  · exact (traced_textOf h).bind fun text _ _ => Value.accounted_ofText _ _ fun lone =>
      h.unencodable (Bool.and_eq_true_iff.mp lone).1
  · exact (traced_textOf h).bind fun text _ _ => traced_identifier _ _ _

theorem accounted_normalizeFunctions :
    ∀ overload ∈ normalizeFunctions, overload.Accounted known key := by
  refine List.forall_mem_cons.mpr ⟨.of_first rfl fun span value h => ?_,
    List.forall_mem_cons.mpr ⟨.of_first rfl fun span value h => ?_,
    List.forall_mem_singleton.mpr (.of_first rfl fun span value h => ?_)⟩⟩
  · exact Value.accounted_ofName _ _
  · exact (traced_textOf h).bind fun text _ _ => Value.accounted_ofName _ _
  · exact Value.accounted_ofName _ _

theorem accounted_hashFunctions (hkey : ∀ text, ∃ digest, hashText key text = .ok digest) :
    ∀ overload ∈ hashFunctions, overload.Accounted known key := by
  have hident (value : Value) (h : value.Accounted known) :
      Traced known (Value.Accounted known)
        (do return .ofName ("__" ++ (← hashValue key value))) :=
    (traced_hashValue hkey h).bind fun digest _ _ => Value.accounted_ofName _ _
  refine List.forall_mem_cons.mpr ⟨.of_first rfl fun span value h => ?_,
    List.forall_mem_cons.mpr ⟨.of_first rfl fun span value h => ?_,
    List.forall_mem_singleton.mpr (.of_first rfl fun span value h => ?_)⟩⟩
  · exact (traced_hashValue hkey h).bind fun digest _ _ => Value.accounted_ofText _ _ nofun
  · exact hident value h
  · exact hident value h

theorem accounted_concatFunctions (joins : Joins known) :
    ∀ overload ∈ concatFunctions, overload.Accounted known key := by
  unfold concatFunctions
  simp only [List.forall_mem_cons]
  refine ⟨fun span values _ _ h => ?_, fun span values _ _ h => ?_, fun span values _ _ h => ?_,
    fun span values hne htypes h => ?_, fun span values _ _ h => ?_, nofun⟩
  · exact (traced_textsOf h).bind fun texts _ _ => traced_identifier _ _ _
  · exact (traced_textsOf fun value mem => h value (List.mem_of_mem_take mem)).bind
      fun first _ _ => traced_identifier _ _ _
  · exact (traced_textsOf h).bind fun texts _ _ => accounted_ofTexts h _
  · have hints : ∀ value ∈ values, value.type = .int := by
      intro value mem
      have mem := List.mem_map_of_mem (f := Value.type) mem
      rw [htypes] at mem
      simp only [Signature.parameterTypes, Option.toList_some, List.flatMap_cons, List.flatMap_nil,
        List.nil_append, List.append_nil] at mem
      exact List.eq_of_mem_replicate mem
    refine (traced_numerals h hints).bind fun texts _ htexts => ?_
    refine Value.accounted_ofDigits joins (numeral_concat ?_ htexts.2) _
    rintro rfl
    exact hne (List.length_eq_zero_iff.mp htexts.1.symm)
  · exact .of_tokens (Token.accounted_flatMap fun value mem => (h value mem).tokens) nofun nofun

theorem accounted_castFunction (target : ValueType) :
    (castFunction target).Accounted known key :=
  .of_first rfl fun _ _ h => h.cast target

theorem accounted_tokensFunctions :
    ∀ overload ∈ tokensFunctions, overload.Accounted known key :=
  List.forall_mem_cons.mpr ⟨.of_first rfl fun _ _ h => h,
    List.forall_mem_singleton.mpr (.of_first rfl fun _ _ h => .of_tokens h.tokens nofun nofun)⟩

/-- All overloads account for their results, those of `concat` if it is known what numerals can be
    joined to. -/
def Accounted (known : DecodeError → Prop) (key : String) (library : Library) : Prop :=
  ∀ overload ∈ library.overloads, (overload.signature.name = "concat" → Joins known) →
    overload.Accounted known key

theorem name_concatFunctions :
    ∀ overload ∈ concatFunctions, overload.signature.name = "concat" := by
  simp [concatFunctions]

theorem accounted_builtin (hkey : ∀ text, ∃ digest, hashText key text = .ok digest) :
    Accounted known key builtin :=
  forall_builtin (fun name transform overload mem _ =>
      accounted_textFunction name transform overload mem)
    (fun overload mem _ => accounted_normalizeFunctions overload mem)
    (fun overload mem _ => accounted_hashFunctions hkey overload mem)
    (fun overload mem joins =>
      accounted_concatFunctions (joins (name_concatFunctions overload mem)) overload mem)
    (fun target _ => accounted_castFunction target)
    fun overload mem _ => accounted_tokensFunctions overload mem

end Library

end AliasExpansion
