import SceneSet.Proofs.Text.Bracket
import Mathlib.Data.List.Infix
import Mathlib.Data.List.TakeWhile

/-!
# The names that a glob pattern means

`Matches` says which names a pattern means, by what the pattern starts with. The marks of
`Glob.isMatch` are the answers of a matcher that goes from left to right, on all suffixes of the
name at once (`foldr_marks`), and the matcher finds just those names (`isMatch_parse`).
-/

namespace SceneSet.Glob

/-! ### The end of a bracket -/

/-- Whether a closing bracket that follows a text closes the bracket. It is a character of it at the
start and after a first exclamation mark. -/
def Closable (inside : List Char) : Prop :=
  inside ≠ [] ∧ inside ≠ ['!']

/-- What stands in a bracket, up to the first character that closes it, and what follows. -/
structure Bracketed (text inside after : List Char) : Prop where
  split : text = inside ++ ']' :: after
  closable : Closable inside
  first : ∀ shorter more, text = shorter ++ ']' :: more → Closable shorter →
    inside.length ≤ shorter.length

/-- The end of a bracket is unique. -/
theorem Bracketed.unique {text inside after inside' after' : List Char}
    (h : Bracketed text inside after) (h' : Bracketed text inside' after') :
    inside = inside' ∧ after = after' := by
  have hlength : inside.length = inside'.length :=
    Nat.le_antisymm (h.first _ _ h'.split h'.closable) (h'.first _ _ h.split h.closable)
  obtain ⟨hinside, hafter⟩ := List.append_inj (h.split.symm.trans h'.split) hlength
  exact ⟨hinside, (List.cons.inj hafter).2⟩

theorem lead_append_drop (text : List Char) : lead text ++ text.drop (lead text).length = text := by
  unfold lead
  split <;> rfl

theorem length_lead_le (text : List Char) : (lead text).length ≤ 2 := by
  unfold lead
  split <;> simp

/-- A closing bracket closes if it comes after the characters that are never closed. -/
theorem closable_iff (inside after : List Char) :
    Closable inside ↔ (lead (inside ++ ']' :: after)).length ≤ inside.length := by
  cases inside with
  | nil => simp [Closable, lead]
  | cons c inside =>
      by_cases hmark : c = '!'
      · subst hmark
        cases inside with
        | nil => simp [Closable, lead]
        | cons d inside =>
            have hlength := length_lead_le ('!' :: d :: inside ++ ']' :: after)
            refine iff_of_true (by simp [Closable]) (hlength.trans ?_)
            simp
      · have hlength : (lead (c :: inside ++ ']' :: after)).length ≤ 1 := by
          rw [List.cons_append]
          unfold lead
          split
          · simp_all
          · simp_all
          · simp
          · simp
        refine iff_of_true (by simp [Closable, hmark]) (hlength.trans ?_)
        simp

/-- The closing bracket is behind the first characters. -/
theorem split_of_closable {text inside after : List Char} (h : text = inside ++ ']' :: after)
    (hclosable : Closable inside) : ∃ middle, inside = lead text ++ middle ∧
      text.drop (lead text).length = middle ++ ']' :: after := by
  have hlength : (lead text).length ≤ inside.length := by
    rw [h]
    exact (closable_iff inside after).mp hclosable
  obtain ⟨middle, hmiddle⟩ : lead text <+: inside :=
    List.prefix_of_prefix_length_le ⟨_, lead_append_drop text⟩ ⟨_, h.symm⟩ hlength
  have hdrop : lead text ++ text.drop (lead text).length =
      lead text ++ (middle ++ ']' :: after) := by
    rw [lead_append_drop, ← List.append_assoc, hmiddle]
    exact h
  exact ⟨middle, hmiddle.symm, List.append_cancel_left hdrop⟩

theorem length_takeWhile_append_le (middle more : List Char) :
    ((middle ++ ']' :: more).takeWhile (· != ']')).length ≤ middle.length := by
  rw [List.takeWhile_append]
  split
  · simp
  · exact (List.takeWhile_prefix _).length_le

theorem bracket?_eq_some {text inside after : List Char}
    (h : bracket? text = some (inside, after)) : Bracketed text inside after := by
  simp only [bracket?] at h
  split at h
  · cases h
  · rename_i closing rest hrest
    obtain ⟨rfl, rfl⟩ := Prod.mk.inj (Option.some.inj h)
    have hclosing : closing = ']' := by
      have hstop := List.head?_dropWhile_not (· != ']') (text.drop (lead text).length)
      rw [hrest] at hstop
      simpa using hstop
    subst hclosing
    have hsplit : text = lead text ++ (text.drop (lead text).length).takeWhile (· != ']') ++
        ']' :: rest := by
      rw [← hrest, List.append_assoc, List.takeWhile_append_dropWhile, lead_append_drop]
    refine ⟨hsplit, ?_, fun shorter more hshorter hclosable => ?_⟩
    · rw [closable_iff _ rest, ← hsplit]
      simp
    · obtain ⟨middle, hmiddle, hdrop⟩ := split_of_closable hshorter hclosable
      rw [hdrop, hmiddle, List.length_append, List.length_append]
      exact Nat.add_le_add_left (length_takeWhile_append_le middle more) _

theorem bracket?_eq_none {text : List Char} (h : bracket? text = none) (inside after : List Char) :
    ¬ Bracketed text inside after := by
  intro hbracketed
  obtain ⟨middle, -, hdrop⟩ := split_of_closable hbracketed.split hbracketed.closable
  simp only [bracket?, hdrop] at h
  split at h
  · rename_i hnone
    exact absurd (List.dropWhile_eq_nil_iff.mp hnone ']' (by simp)) (by decide)
  · cases h

/-! ### Matching from left to right -/

/-- The names that a pattern means. A bracket that is not closed means itself. -/
inductive Matches : List Char → List Char → Prop
  | nil : Matches [] []
  | anyRun (run : List Char) {pattern name : List Char} : Matches pattern name →
      Matches ('*' :: pattern) (run ++ name)
  | anyChar (c : Char) {pattern name : List Char} : Matches pattern name →
      Matches ('?' :: pattern) (c :: name)
  | oneOf {c : Char} {text inside after name : List Char} : Bracketed text inside after →
      (Bracket.ofText inside).Admits c → Matches after name → Matches ('[' :: text) (c :: name)
  | opening {text name : List Char} : (∀ inside after, ¬ Bracketed text inside after) →
      Matches text name → Matches ('[' :: text) ('[' :: name)
  | exactly {c : Char} {pattern name : List Char} : c ∉ ['*', '?', '['] → Matches pattern name →
      Matches (c :: pattern) (c :: name)

/-- Whether a name starts with a character that passes a test, and the rest is accepted. -/
def acceptsNext (test : Char → Bool) (accepted : List Char → Bool) : List Char → Bool
  | [] => false
  | c :: name => test c && accepted name

/-- Whether the items of a pattern accept a name, one item after the other. -/
def accepts : List Item → List Char → Bool
  | [] => List.isEmpty
  | .anyRun :: items => fun name => name.tails.any (accepts items)
  | .anyChar :: items => acceptsNext (fun _ => true) (accepts items)
  | .exactly c :: items => acceptsNext (· == c) (accepts items)
  | .oneOf set :: items => acceptsNext set.contains (accepts items)

theorem markedNext_tails (test : Char → Bool) (accepted : List Char → Bool) (name : List Char) :
    markedNext test name (name.tails.map accepted) =
      name.tails.map (acceptsNext test accepted) := by
  induction name with
  | nil => rfl
  | cons c name ih =>
      have hhead : (name.tails.map accepted).headD false = accepted name := by cases name <;> rfl
      rw [List.tails_cons, List.map_cons, List.map_cons, markedNext, List.drop_one, List.tail_cons,
        ih, hhead]
      rfl

theorem markedLater_tails (accepted : List Char → Bool) (name : List Char) :
    markedLater (name.tails.map accepted) =
      name.tails.map fun suffix => suffix.tails.any accepted := by
  induction name with
  | nil => simp [markedLater]
  | cons c name ih =>
      rw [List.tails_cons, List.map_cons, List.map_cons, markedLater, ih, List.any_map,
        List.tails_cons, List.any_cons]
      rfl

theorem endMarks_eq (name : List Char) : endMarks name = name.tails.map List.isEmpty := by
  induction name with
  | nil => rfl
  | cons c name ih =>
      rw [List.tails_cons, List.map_cons, ← ih]
      rfl

/-- The marks of the items are what they accept, at each suffix of the name. -/
theorem foldr_marks (items : List Item) (name : List Char) :
    items.foldr (Item.marks name) (endMarks name) = name.tails.map (accepts items) := by
  induction items with
  | nil => exact endMarks_eq name
  | cons item items ih =>
      rw [List.foldr_cons, ih]
      cases item with
      | anyRun => exact markedLater_tails (accepts items) name
      | anyChar => exact markedNext_tails _ (accepts items) name
      | exactly c => exact markedNext_tails _ (accepts items) name
      | oneOf set => exact markedNext_tails _ (accepts items) name

theorem isMatch_eq (items : List Item) (name : List Char) :
    isMatch items name = accepts items name := by
  rw [isMatch, foldr_marks]
  cases name <;> rfl

theorem acceptsNext_iff (test : Char → Bool) (accepted : List Char → Bool) (name : List Char) :
    acceptsNext test accepted name = true ↔
      ∃ c rest, name = c :: rest ∧ test c = true ∧ accepted rest = true := by
  cases name with
  | nil => simp [acceptsNext]
  | cons c rest =>
      rw [acceptsNext, Bool.and_eq_true]
      constructor
      · exact fun h => ⟨c, rest, rfl, h⟩
      · rintro ⟨d, more, heq, h⟩
        obtain ⟨rfl, rfl⟩ := List.cons.inj heq
        exact h

theorem any_tails_iff (accepted : List Char → Bool) (name : List Char) :
    name.tails.any accepted = true ↔ ∃ run rest, name = run ++ rest ∧ accepted rest = true := by
  rw [List.any_eq_true]
  constructor
  · rintro ⟨rest, hmem, h⟩
    obtain ⟨run, hrun⟩ := (List.mem_tails rest name).mp hmem
    exact ⟨run, rest, hrun.symm, h⟩
  · rintro ⟨run, rest, hname, h⟩
    exact ⟨rest, (List.mem_tails rest name).mpr ⟨run, hname.symm⟩, h⟩

theorem parse_closed {rest inside after : List Char} (h : bracket? rest = some (inside, after)) :
    parse ('[' :: rest) = .oneOf (CharSet.ofText inside) :: parse after := by
  rw [parse]
  split
  · rename_i hfound
    obtain ⟨rfl, rfl⟩ := Prod.mk.inj (Option.some.inj (hfound.symm.trans h))
    rfl
  · rename_i hfound
    cases hfound.symm.trans h

theorem parse_unclosed {rest : List Char} (h : bracket? rest = none) :
    parse ('[' :: rest) = .exactly '[' :: parse rest := by
  rw [parse]
  split
  · rename_i hfound
    cases hfound.symm.trans h
  · rfl

/-- The items of a pattern accept the names that it means. -/
theorem accepts_parse (pattern : List Char) :
    ∀ name, accepts (parse pattern) name = true ↔ Matches pattern name := by
  induction pattern using parse.induct with
  | case1 =>
      intro name
      rw [parse]
      constructor
      · intro h
        obtain rfl := List.isEmpty_iff.mp h
        exact .nil
      · rintro ⟨⟩
        rfl
  | case2 rest ih =>
      intro name
      rw [parse]
      refine (any_tails_iff _ name).trans ⟨?_, ?_⟩
      · rintro ⟨run, rest, rfl, h⟩
        exact .anyRun run ((ih _).mp h)
      · intro h
        cases h with
        | anyRun run h => exact ⟨run, _, rfl, (ih _).mpr h⟩
        | exactly h => exact absurd h (by simp)
  | case3 rest ih =>
      intro name
      rw [parse]
      refine (acceptsNext_iff _ _ name).trans ⟨?_, ?_⟩
      · rintro ⟨c, rest, rfl, -, h⟩
        exact .anyChar c ((ih _).mp h)
      · intro h
        cases h with
        | anyChar c h => exact ⟨c, _, rfl, rfl, (ih _).mpr h⟩
        | exactly h => exact absurd h (by simp)
  | case4 rest inside after hfound ih =>
      intro name
      have hbracketed := bracket?_eq_some hfound
      rw [parse_closed hfound]
      refine (acceptsNext_iff _ _ name).trans ⟨?_, ?_⟩
      · rintro ⟨c, rest, rfl, htest, h⟩
        exact .oneOf hbracketed ((contains_ofText inside c).mp htest) ((ih _).mp h)
      · intro h
        cases h with
        | oneOf hother hadmits h =>
            obtain ⟨rfl, rfl⟩ := hbracketed.unique hother
            exact ⟨_, _, rfl, (contains_ofText inside _).mpr hadmits, (ih _).mpr h⟩
        | opening hnone => exact absurd hbracketed (hnone _ _)
        | exactly h => exact absurd h (by simp)
  | case5 rest hfound ih =>
      intro name
      have hnone := bracket?_eq_none hfound
      rw [parse_unclosed hfound]
      refine (acceptsNext_iff _ _ name).trans ⟨?_, ?_⟩
      · rintro ⟨c, rest, rfl, htest, h⟩
        obtain rfl := LawfulBEq.eq_of_beq htest
        exact .opening hnone ((ih _).mp h)
      · intro h
        cases h with
        | oneOf hother => exact absurd hother (hnone _ _)
        | opening _ h => exact ⟨'[', _, rfl, rfl, (ih _).mpr h⟩
        | exactly h => exact absurd h (by simp)
  | case6 c rest hrun hchar hopening ih =>
      intro name
      rw [parse.eq_5 _ _ hrun hchar hopening]
      refine (acceptsNext_iff _ _ name).trans ⟨?_, ?_⟩
      · rintro ⟨d, rest, rfl, htest, h⟩
        obtain rfl := LawfulBEq.eq_of_beq htest
        exact .exactly (by simpa using ⟨hrun, hchar, hopening⟩) ((ih _).mp h)
      · intro h
        cases h with
        | exactly hother h => exact ⟨c, _, rfl, BEq.rfl, (ih _).mpr h⟩
        | anyRun => exact absurd rfl hrun
        | anyChar => exact absurd rfl hchar
        | oneOf => exact absurd rfl hopening
        | opening => exact absurd rfl hopening

/-- Matching decides whether a pattern means a name. -/
theorem isMatch_parse (pattern name : List Char) :
    isMatch (parse pattern) name = true ↔ Matches pattern name := by
  rw [isMatch_eq, accepts_parse]

instance (pattern name : List Char) : Decidable (Matches pattern name) :=
  decidable_of_iff _ (isMatch_parse pattern name)

example : isMatch (parse ['[', '!', 'a', '-', 'c', ']', '*', '[']) ['d', '\n', 'x', '['] = true := by
  decide +kernel

end SceneSet.Glob
