import Mathlib.Data.List.Infix
import Mathlib.Data.List.Nodup

/-!
# First arrivals

What is left of a stream once its repeats are dropped: every value that arrives, once, in the order
of the first arrivals. `distinct` computes it in one pass, with a list of what has been seen.
-/

namespace Arrivals

variable {α : Type*} {xs l l' : List α} {a b : α}

/-! ### The order of first arrival -/

/-- Some first part of the stream has `a` in it, and not `b`. -/
def Before (xs : List α) (a b : α) : Prop := ∃ ys, ys <+: xs ∧ a ∈ ys ∧ b ∉ ys

namespace Before

lemma append (h : Before xs a b) (ys : List α) : Before (xs ++ ys) a b := by
  obtain ⟨zs, hz, ha, hb⟩ := h
  exact ⟨zs, hz.trans (List.prefix_append _ _), ha, hb⟩

lemma asymm (h : Before xs a b) : ¬ Before xs b a := by
  rintro ⟨zs, hz, hb, ha⟩
  obtain ⟨ys, hy, ha', hb'⟩ := h
  rcases List.prefix_or_prefix_of_prefix hy hz with hle | hle
  · exact ha (hle.subset ha')
  · exact hb' (hle.subset hb)

end Before

/-- `l` has the values of the stream, each once, in the order of first arrival. -/
structure FirstArrivals (xs l : List α) : Prop where
  nodup : l.Nodup
  mem_iff : ∀ a, a ∈ l ↔ a ∈ xs
  ordered : l.Pairwise (Before xs)

namespace FirstArrivals

/-- There is only one such list. -/
theorem unique (h : FirstArrivals xs l) (h' : FirstArrivals xs l') : l = l' := by
  have hperm : l.Perm l' :=
    (List.perm_ext_iff_of_nodup h.nodup h'.nodup).2 fun a => (h.mem_iff a).trans (h'.mem_iff a).symm
  exact hperm.eq_of_pairwise (fun a b _ _ hab hba => absurd hba hab.asymm) h.ordered h'.ordered

lemma nil : FirstArrivals ([] : List α) [] := ⟨.nil, fun _ => .rfl, .nil⟩

/-- A value that has been there changes nothing. -/
lemma snoc_seen (h : FirstArrivals xs l) (ha : a ∈ l) : FirstArrivals (xs ++ [a]) l := by
  refine ⟨h.nodup, fun b => ?_, h.ordered.imp fun hbc => hbc.append _⟩
  have hseen : b = a → b ∈ xs := by
    rintro rfl
    exact (h.mem_iff b).1 ha
  simp only [List.mem_append, List.mem_singleton, h.mem_iff]
  exact ⟨.inl, fun hb => hb.elim id hseen⟩

/-- A new value comes after all others. -/
lemma snoc_new (h : FirstArrivals xs l) (ha : a ∉ l) : FirstArrivals (xs ++ [a]) (l ++ [a]) := by
  refine ⟨?_, fun b => ?_, ?_⟩
  · simpa only [List.concat_eq_append] using h.nodup.concat ha
  · simp only [List.mem_append, h.mem_iff]
  · rw [List.pairwise_append]
    refine ⟨h.ordered.imp fun hbc => hbc.append _, List.pairwise_singleton _ _, fun b hb c hc => ?_⟩
    obtain rfl := List.mem_singleton.1 hc
    exact ⟨xs, List.prefix_append _ _, (h.mem_iff b).1 hb, fun hc => ha ((h.mem_iff c).2 hc)⟩

end FirstArrivals

/-! ### One pass -/

variable [DecidableEq α]

/-- Drop every value that has been seen. -/
def distinct (xs : List α) : List α :=
  xs.foldl (fun seen x => if x ∈ seen then seen else seen ++ [x]) []

lemma distinct_snoc (xs : List α) (a : α) :
    distinct (xs ++ [a]) = if a ∈ distinct xs then distinct xs else distinct xs ++ [a] := by
  rw [distinct, List.foldl_append]
  rfl

theorem firstArrivals_distinct (xs : List α) : FirstArrivals xs (distinct xs) := by
  induction xs using List.reverseRecOn with
  | nil => exact .nil
  | append_singleton xs a ih =>
    rw [distinct_snoc]
    split_ifs with ha
    · exact ih.snoc_seen ha
    · exact ih.snoc_new ha

end Arrivals
