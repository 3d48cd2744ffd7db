import Mathlib

/-!
# Ranks

The rank of an element of a list is the number of elements with a greater key. With distinct keys,
the rank is the position in the list sorted from the greatest key down (`rank_append_cons`), so a
cut of the sorted list at `k` keeps the elements of rank below `k`, and there are `min k n` of them.
-/

namespace AgentOS.Lib

variable {α κ : Type} [LinearOrder κ] (key : α → κ)

/-- The number of elements with a greater key. -/
def rank (l : List α) (a : α) : Nat := l.countP fun c => decide (key a < key c)

theorem rank_perm {l l' : List α} (h : l.Perm l') (a : α) : rank key l a = rank key l' a :=
  h.countP_eq _

variable {key}

/-- In a list that descends strictly, the rank is the number of elements before. -/
theorem rank_append_cons {l r : List α} {a : α}
    (h : (l ++ a :: r).Pairwise fun b c => key c < key b) :
    rank key (l ++ a :: r) a = l.length := by
  obtain ⟨-, hr, hcr⟩ := List.pairwise_append.1 h
  have hb : l.countP (fun c => decide (key a < key c)) = l.length := by
    rw [List.countP_eq_length]
    intro c hc
    exact decide_eq_true (hcr c hc a List.mem_cons_self)
  have ha : (a :: r).countP (fun c => decide (key a < key c)) = 0 := by
    rw [List.countP_eq_zero]
    intro c hc hlt
    rcases List.mem_cons.1 hc with rfl | hc
    · exact lt_irrefl _ (of_decide_eq_true hlt)
    · exact lt_asymm (of_decide_eq_true hlt) ((List.pairwise_cons.1 hr).1 c hc)
  rw [rank, List.countP_append, hb, ha, Nat.add_zero]

/-- The elements of a strictly descending list with rank below `k` are its first `k`. -/
theorem filter_rank_lt {l : List α} (k : Nat) (h : l.Pairwise fun b c => key c < key b) :
    l.filter (fun a => decide (rank key l a < k)) = l.take k := by
  -- along the list, with what was passed so far in front
  suffices hall : ∀ pre post : List α, pre ++ post = l →
      post.filter (fun a => decide (rank key l a < k)) = post.take (k - pre.length) by
    simpa using hall [] l rfl
  intro pre post
  induction post generalizing pre with
  | nil => simp
  | cons a post ih =>
    rintro rfl
    have hrank : rank key (pre ++ a :: post) a = pre.length := rank_append_cons h
    have hrest := ih (pre ++ [a]) (by simp)
    rw [List.length_append, List.length_singleton] at hrest
    rw [List.filter_cons, hrank, hrest]
    by_cases hk : pre.length < k
    · obtain ⟨n, hn⟩ : ∃ n, k - pre.length = n + 1 := ⟨k - pre.length - 1, by omega⟩
      rw [if_pos (decide_eq_true hk), hn, List.take_succ_cons,
        show k - (pre.length + 1) = n by omega]
    · rw [if_neg (by simpa using hk), show k - (pre.length + 1) = 0 by omega,
        show k - pre.length = 0 by omega, List.take_zero, List.take_zero]

/-- Among elements with distinct keys, `min k n` have a rank below `k`. -/
theorem countP_rank_lt {l sorted : List α} (k : Nat) (hperm : sorted.Perm l)
    (h : sorted.Pairwise fun b c => key c < key b) :
    l.countP (fun a => decide (rank key l a < k)) = min k l.length := by
  have hrank : ∀ a, rank key l a = rank key sorted a := fun a => (rank_perm key hperm a).symm
  simp only [hrank]
  rw [← hperm.countP_eq, List.countP_eq_length_filter, filter_rank_lt k h, List.length_take,
    hperm.length_eq]

end AgentOS.Lib
