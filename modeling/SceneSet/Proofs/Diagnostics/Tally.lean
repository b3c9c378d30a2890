import SceneSet.Diagnostics
import Mathlib.Algebra.Order.Ring.Nat

/-!
# Tallies of diagnostics

`Tallies occurrences tally` says that a tally lists just the kinds that occur, each with how often
it does, in strictly increasing order. There is only one such tally (`Tallies.unique`), and a log has
it (`tallies_tally`). So the summary of a log depends on how often each kind was recorded, and not on
the order of the entries (`summary_of_perm`).
-/

namespace SceneSet.Log

/-- A tally lists the kinds that occur, each with how often it does, in strictly increasing
order. -/
structure Tallies (occurrences : String → Nat) (tally : List (String × Nat)) : Prop where
  sorted : tally.Pairwise fun first second => first.1 < second.1
  counts : ∀ kind n, (kind, n) ∈ tally ↔ 0 < n ∧ n = occurrences kind

/-- One more occurrence of a kind. -/
def oneMore (kind : String) (occurrences : String → Nat) (other : String) : Nat :=
  occurrences other + if other = kind then 1 else 0

/-- All occurrences but those of a kind. -/
def without (kind : String) (occurrences : String → Nat) (other : String) : Nat :=
  if other = kind then 0 else occurrences other

variable {occurrences : String → Nat} {tally other : List (String × Nat)} {kind : String} {n : Nat}
  {log second : Log}

theorem without_self : without kind occurrences kind = 0 := if_pos rfl

theorem without_of_ne {second : String} (h : second ≠ kind) :
    without kind occurrences second = occurrences second := if_neg h

theorem oneMore_self : oneMore kind occurrences kind = occurrences kind + 1 := by
  rw [oneMore, if_pos rfl]

theorem oneMore_of_ne {second : String} (h : second ≠ kind) :
    oneMore kind occurrences second = occurrences second := by
  rw [oneMore, if_neg h, Nat.add_zero]

/-- Of other kinds there are as many as before. -/
theorem without_oneMore : without kind (oneMore kind occurrences) = without kind occurrences := by
  funext second
  by_cases h : second = kind
  · rw [h, without_self, without_self]
  · rw [without_of_ne h, without_of_ne h, oneMore_of_ne h]

theorem without_of_none (h : occurrences kind = 0) : without kind occurrences = occurrences := by
  funext second
  by_cases hsecond : second = kind
  · rw [hsecond, without_self, h]
  · exact without_of_ne hsecond

theorem without_oneMore_of_ne {first : String} (h : first ≠ kind) :
    without first (oneMore kind occurrences) = oneMore kind (without first occurrences) := by
  funext second
  by_cases hsecond : second = first
  · rw [hsecond, without_self, oneMore_of_ne h, without_self]
  · rw [without_of_ne hsecond, oneMore, oneMore, without_of_ne hsecond]

namespace Tallies

/-- What the first item of a tally says, and that the rest is a tally of the other kinds. -/
theorem cons_iff : Tallies occurrences ((kind, n) :: tally) ↔
    (∀ item ∈ tally, kind < item.1) ∧ 0 < n ∧ n = occurrences kind ∧
      Tallies (without kind occurrences) tally := by
  constructor
  · rintro ⟨hsorted, hcounts⟩
    obtain ⟨hfirst, hrest⟩ := List.pairwise_cons.mp hsorted
    obtain ⟨hpositive, hcount⟩ := (hcounts kind n).mp List.mem_cons_self
    refine ⟨hfirst, hpositive, hcount, hrest, fun other m => ?_⟩
    by_cases hother : other = kind
    · -- the kind of the first item is not listed again
      rw [hother, without_self]
      exact iff_of_false (fun hmem => String.lt_irrefl kind (hfirst _ hmem))
        fun hzero => absurd hzero.2 (Nat.ne_of_gt hzero.1)
    · rw [without_of_ne hother, ← hcounts, List.mem_cons, Prod.mk.injEq]
      exact ⟨.inr, fun h => h.resolve_left fun hsame => hother hsame.1⟩
  · rintro ⟨hfirst, hpositive, hcount, hsorted, hcounts⟩
    refine ⟨List.pairwise_cons.mpr ⟨hfirst, hsorted⟩, fun other m => ?_⟩
    rw [List.mem_cons, Prod.mk.injEq, hcounts]
    by_cases hother : other = kind
    · rw [hother, without_self]
      constructor
      · rintro (⟨-, rfl⟩ | ⟨hpos, hzero⟩)
        · exact ⟨hpositive, hcount⟩
        · exact absurd hzero (Nat.ne_of_gt hpos)
      · exact fun h => .inl ⟨rfl, h.2.trans hcount.symm⟩
    · rw [without_of_ne hother]
      exact ⟨fun h => h.resolve_left fun hsame => hother hsame.1, .inr⟩

/-- A kind that is listed comes behind everything that all listed kinds come behind. -/
theorem lt_of_pos {bound : String} (h : Tallies occurrences tally)
    (hbound : ∀ item ∈ tally, bound < item.1) (hkind : 0 < occurrences kind) : bound < kind :=
  hbound _ ((h.counts kind _).mpr ⟨hkind, rfl⟩)

/-- A kind that is new and comes in front of all that are listed. -/
theorem cons (h : Tallies occurrences tally) (hbefore : ∀ item ∈ tally, kind < item.1) :
    Tallies (oneMore kind occurrences) ((kind, 1) :: tally) := by
  have hnone : occurrences kind = 0 := Nat.eq_zero_of_not_pos fun hpos =>
    String.lt_irrefl kind (h.lt_of_pos hbefore hpos)
  refine cons_iff.mpr ⟨hbefore, Nat.one_pos, by rw [oneMore_self, hnone], ?_⟩
  rw [without_oneMore, without_of_none hnone]
  exact h

/-- One more occurrence of the kind that is listed first. -/
theorem succ (h : Tallies occurrences ((kind, n) :: tally)) :
    Tallies (oneMore kind occurrences) ((kind, n + 1) :: tally) := by
  obtain ⟨hfirst, -, hcount, hrest⟩ := cons_iff.mp h
  refine cons_iff.mpr ⟨hfirst, Nat.succ_pos n, by rw [oneMore_self, hcount], ?_⟩
  rw [without_oneMore]
  exact hrest

/-- One more occurrence of a kind behind the one that is listed first. -/
theorem behind {first : String} {counted : List (String × Nat)}
    (h : Tallies occurrences ((first, n) :: tally)) (hafter : first < kind)
    (hcounted : Tallies (oneMore kind (without first occurrences)) counted) :
    Tallies (oneMore kind occurrences) ((first, n) :: counted) := by
  obtain ⟨hfirst, hpositive, hcount, hrest⟩ := cons_iff.mp h
  have hne : first ≠ kind := fun heq => String.lt_irrefl kind (heq ▸ hafter)
  refine cons_iff.mpr ⟨fun item hitem => ?_, hpositive, ?_, ?_⟩
  · obtain ⟨hpos, hitemCount⟩ := (hcounted.counts item.1 item.2).mp hitem
    by_cases hitemKind : item.1 = kind
    · rw [hitemKind]
      exact hafter
    · rw [oneMore_of_ne hitemKind] at hitemCount
      exact hrest.lt_of_pos hfirst (hitemCount ▸ hpos)
  · rw [oneMore_of_ne hne, hcount]
  · rw [without_oneMore_of_ne hne]
    exact hcounted

/-- One more occurrence of a kind. The induction is on the tally, up to where the kind belongs. -/
theorem count (h : Tallies occurrences tally) (kind : String) :
    Tallies (oneMore kind occurrences) (Log.count kind tally) := by
  induction tally generalizing occurrences with
  | nil => exact h.cons nofun
  | cons item rest ih =>
      obtain ⟨first, n⟩ := item
      obtain ⟨hfirst, -, -, hrest⟩ := cons_iff.mp h
      unfold Log.count
      by_cases hsame : kind = first
      · subst hsame
        rw [if_pos rfl]
        exact h.succ
      rw [if_neg hsame]
      by_cases hbefore : kind < first
      · rw [if_pos hbefore]
        exact h.cons (List.forall_mem_cons.mpr
          ⟨hbefore, fun item hitem => String.lt_trans hbefore (hfirst item hitem)⟩)
      · rw [if_neg hbefore]
        have hafter : first < kind := Decidable.byContradiction fun hnot =>
          hsame (String.le_antisymm (String.not_lt.mp hnot) (String.not_lt.mp hbefore))
        exact h.behind hafter (ih hrest)

/-- There is only one tally of some occurrences. -/
theorem unique (h : Tallies occurrences tally) (hother : Tallies occurrences other) :
    tally = other := by
  have hnodup : ∀ {items : List (String × Nat)}, Tallies occurrences items → items.Nodup :=
    fun hitems => List.nodup_iff_pairwise_ne.mpr <| hitems.sorted.imp
      fun {first second} hlt (heq : first = second) => String.lt_irrefl second.1 (heq ▸ hlt)
  refine List.Perm.eq_of_pairwise (fun _ _ _ _ hlt hgt => absurd hgt (String.lt_asymm hlt))
    h.sorted hother.sorted ((List.perm_ext_iff_of_nodup (hnodup h) (hnodup hother)).mpr ?_)
  rintro ⟨kind, n⟩
  rw [h.counts, hother.counts]

end Tallies

/-- How often a kind was recorded. -/
def occurrencesOf (entries : List Diagnostic) (kind : String) : Nat :=
  entries.countP fun entry => entry.kind = kind

theorem occurrencesOf_cons (entry : Diagnostic) (entries : List Diagnostic) :
    occurrencesOf (entry :: entries) = oneMore entry.kind (occurrencesOf entries) := by
  funext kind
  unfold occurrencesOf oneMore
  rw [List.countP_cons]
  simp only [decide_eq_true_eq, @eq_comm _ kind]

/-- The tally of a log is that of what was recorded. -/
theorem tallies_tally (log : Log) : Tallies (occurrencesOf log.entries) log.tally := by
  unfold Log.tally
  induction log.entries with
  | nil =>
      refine ⟨.nil, fun kind n => iff_of_false List.not_mem_nil fun h => ?_⟩
      exact absurd h.2 (Nat.ne_of_gt h.1)
  | cons entry entries ih =>
      rw [List.map_cons, List.foldr_cons, occurrencesOf_cons]
      exact ih.count entry.kind

theorem sum_count (kind : String) (tally : List (String × Nat)) :
    ((count kind tally).map (·.2)).sum = (tally.map (·.2)).sum + 1 := by
  induction tally with
  | nil => rfl
  | cons item rest ih =>
      obtain ⟨other, n⟩ := item
      unfold count
      split
      · simp only [List.map_cons, List.sum_cons]
        omega
      · split
        · simp only [List.map_cons, List.sum_cons]
          omega
        · simp only [List.map_cons, List.sum_cons, ih]
          omega

/-- The counts of a tally add up to the size of the log. -/
theorem sum_tally (log : Log) : (log.tally.map (·.2)).sum = log.size := by
  unfold Log.tally size
  induction log.entries with
  | nil => rfl
  | cons entry entries ih =>
      rw [List.map_cons, List.foldr_cons, sum_count, ih, List.length_cons]

/-- The text of a tally. -/
def tallyText (tally : List (String × Nat)) : String :=
  String.intercalate ", " (tally.map fun (kind, n) => kind ++ "=" ++ Numeral.text n)

theorem summary_of_ne_nil (h : log.entries ≠ []) : log.summary = tallyText log.tally := by
  unfold summary
  rw [if_neg (by simpa using h)]
  rfl

/-- Every tally with an item has an equality sign in its text. -/
theorem mem_tallyText (h : tally ≠ []) : '=' ∈ (tallyText tally).toList := by
  obtain ⟨⟨kind, n⟩, rest, rfl⟩ := List.exists_cons_of_ne_nil h
  have hfirst : '=' ∈ (kind ++ "=" ++ Numeral.text n).toList := by simp
  unfold tallyText
  rw [String.toList_intercalate, List.map_cons, List.map_cons]
  cases rest with
  | nil => simp
  | cons item rest =>
      rw [List.map_cons, List.map_cons, List.intercalate_cons_cons, List.append_assoc]
      exact List.mem_append_left _ hfirst

/-- Only an empty log has no diagnostics. -/
theorem summary_eq_none_iff : log.summary = "no diagnostics" ↔ log.entries = [] := by
  constructor
  · intro h
    refine Decidable.byContradiction fun hentries => ?_
    have htally : log.tally ≠ [] := by
      intro hnone
      have hsum := sum_tally log
      rw [hnone] at hsum
      exact hentries (List.length_eq_zero_iff.mp hsum.symm)
    have hmem := mem_tallyText htally
    rw [← summary_of_ne_nil hentries, h] at hmem
    exact absurd hmem (by decide)
  · intro h
    unfold summary
    rw [h]
    rfl

/-- The order of the entries does not matter. -/
theorem summary_of_perm (h : log.entries.Perm second.entries) : log.summary = second.summary := by
  have hsame : occurrencesOf log.entries = occurrencesOf second.entries :=
    funext fun kind => h.countP_eq _
  have htally : log.tally = second.tally :=
    log.tallies_tally.unique (hsame ▸ second.tallies_tally)
  by_cases hentries : log.entries = []
  · rw [summary_eq_none_iff.mpr hentries,
      summary_eq_none_iff.mpr (List.nil_perm.mp (hentries ▸ h))]
  · rw [summary_of_ne_nil hentries, htally, summary_of_ne_nil]
    exact fun hnone => hentries (List.perm_nil.mp (hnone ▸ h))

end SceneSet.Log
