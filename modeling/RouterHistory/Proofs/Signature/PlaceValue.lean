import Mathlib.Data.List.TakeWhile
import Mathlib.Data.Nat.Digits.Lemmas
import RouterHistory.Signature

/-!
Digits in one base expanded in another. A list of digits is a number with zeros in front of it:
the number has one expansion without such zeros, and the zeros are carried over one by one.
Expanding in another base and back therefore gives the same list.
-/
namespace RouterHistory

namespace Base58

variable {base source target width n d : Nat} {digits : List Nat}

theorem number_eq_ofDigits (base : Nat) (digits : List Nat) :
    number base digits = Nat.ofDigits base digits.reverse := by
  induction digits using List.reverseRecOn with
  | nil => rfl
  | append_singleton ds d ih =>
    have hlast : number base (ds ++ [d]) = number base ds * base + d := by
      simp only [number, List.foldl_append, List.foldl_cons, List.foldl_nil]
    rw [hlast, ih, List.reverse_append, List.reverse_singleton, List.singleton_append,
      Nat.ofDigits_cons]
    ring

theorem number_lt (hbase : 1 < base) (hdigits : ∀ d ∈ digits, d < base) :
    number base digits < base ^ digits.length := by
  rw [number_eq_ofDigits, ← List.length_reverse]
  exact Nat.ofDigits_lt_base_pow_length hbase fun d hd => hdigits d (List.mem_reverse.1 hd)

theorem number_zeros_append (base zeros : Nat) (digits : List Nat) :
    number base (List.replicate zeros 0 ++ digits) = number base digits := by
  rw [number_eq_ofDigits, List.reverse_append, List.reverse_replicate,
    Nat.ofDigits_append_replicate_zero, ← number_eq_ofDigits]

theorem expand_eq_digits (hbase : 1 < base) (hn : n < base ^ width) :
    expand base width n = Nat.digits base n := by
  induction width generalizing n with
  | zero =>
    rw [pow_zero, Nat.lt_one_iff] at hn
    rw [hn, Nat.digits_zero]
    rfl
  | succ width ih =>
    unfold expand
    split
    next hzero => rw [hzero, Nat.digits_zero]
    next hne =>
      rw [pow_succ'] at hn
      rw [ih (Nat.div_lt_of_lt_mul hn), Nat.digits_def' hbase (Nat.pos_of_ne_zero hne)]

theorem places_eq_digits (hbase : 1 < base) (hn : n < base ^ width) :
    places base width n = (Nat.digits base n).reverse := by
  rw [places, expand_eq_digits hbase hn]

theorem number_places (hbase : 1 < base) (hn : n < base ^ width) :
    number base (places base width n) = n := by
  rw [places_eq_digits hbase hn, number_eq_ofDigits, List.reverse_reverse, Nat.ofDigits_digits]

theorem lt_of_mem_places (hbase : 1 < base) (hn : n < base ^ width)
    (hd : d ∈ places base width n) : d < base := by
  rw [places_eq_digits hbase hn, List.mem_reverse] at hd
  exact Nat.digits_lt_base hbase hd

/-- The digits of a number do not begin with a zero. -/
theorem head?_places_ne_zero (hbase : 1 < base) (hn : n < base ^ width) :
    (places base width n).head? ≠ some 0 := by
  rw [places_eq_digits hbase hn, List.head?_reverse]
  intro hlast
  have hne : n ≠ 0 := fun hzero => by
    rw [hzero, Nat.digits_zero] at hlast
    cases hlast
  have hdigits : Nat.digits base n ≠ [] := Nat.digits_ne_nil_iff_ne_zero.2 hne
  rw [List.getLast?_eq_some_getLast hdigits] at hlast
  exact Nat.getLast_digit_ne_zero base hne (Option.some.inj hlast)

theorem places_number (hbase : 1 < base) (hdigits : ∀ d ∈ digits, d < base)
    (hhead : digits.head? ≠ some 0) (hwidth : number base digits < base ^ width) :
    places base width (number base digits) = digits := by
  rw [places_eq_digits hbase hwidth, number_eq_ofDigits, Nat.digits_ofDigits base hbase,
    List.reverse_reverse]
  · exact fun d hd => hdigits d (List.mem_reverse.1 hd)
  · intro hne hlast
    rw [List.getLast_reverse] at hlast
    exact hhead (List.head_eq_iff_head?_eq_some _ |>.1 hlast)

theorem zeros_append_dropWhile (digits : List Nat) :
    List.replicate (leadingZeros digits) 0 ++ digits.dropWhile (· = 0) = digits := by
  have hzeros : digits.takeWhile (· = 0) = List.replicate (leadingZeros digits) 0 :=
    List.eq_replicate_of_mem fun d hd => by simpa using List.mem_takeWhile_imp hd
  rw [← hzeros, List.takeWhile_append_dropWhile]

theorem leadingZeros_zeros_append (zeros : Nat) (hhead : digits.head? ≠ some 0) :
    leadingZeros (List.replicate zeros 0 ++ digits) = zeros := by
  have hrest : digits.takeWhile (· = 0) = [] := by
    cases digits with
    | nil => rfl
    | cons d rest =>
      refine List.takeWhile_cons_of_neg fun hd => hhead ?_
      rw [List.head?_cons, of_decide_eq_true hd]
  rw [leadingZeros, List.takeWhile_append_of_pos (by simp), hrest, List.append_nil,
    List.length_replicate]

theorem lt_of_mem_rebase (htarget : 1 < target) (hwidth : number source digits < target ^ width)
    (hd : d ∈ rebase source target width digits) : d < target := by
  rcases List.mem_append.1 hd with hzero | hplace
  · rw [List.eq_of_mem_replicate hzero]
    exact Nat.zero_lt_of_lt htarget
  · exact lt_of_mem_places htarget hwidth hplace

theorem number_rebase (htarget : 1 < target) (hwidth : number source digits < target ^ width) :
    number target (rebase source target width digits) = number source digits := by
  rw [rebase, number_zeros_append, number_places htarget hwidth]

theorem leadingZeros_rebase (htarget : 1 < target)
    (hwidth : number source digits < target ^ width) :
    leadingZeros (rebase source target width digits) = leadingZeros digits := by
  rw [rebase, leadingZeros_zeros_append _ (head?_places_ne_zero htarget hwidth)]

/-- Expanding digits in another base and back gives the same digits, if there is room for them. -/
theorem rebase_rebase {back : Nat} (hsource : 1 < source) (htarget : 1 < target)
    (hdigits : ∀ d ∈ digits, d < source) (hwidth : number source digits < target ^ width)
    (hback : number source digits < source ^ back) :
    rebase target source back (rebase source target width digits) = digits := by
  have hhead : (digits.dropWhile (· = 0)).head? ≠ some 0 := by
    intro hzero
    have hnot := List.head?_dropWhile_not (fun d : Nat => decide (d = 0)) digits
    simp [hzero] at hnot
  have hnumber : number source (digits.dropWhile (· = 0)) = number source digits := by
    conv_rhs => rw [← zeros_append_dropWhile digits, number_zeros_append]
  have hrest : places source back (number source digits) = digits.dropWhile (· = 0) := by
    rw [← hnumber]
    refine places_number hsource (fun d hd => hdigits d (List.dropWhile_sublist _ |>.subset hd))
      hhead ?_
    rwa [hnumber]
  rw [rebase, leadingZeros_rebase htarget hwidth, number_rebase htarget hwidth, hrest,
    zeros_append_dropWhile]

end Base58

end RouterHistory
