/-
Content hashes of two values in either order.

The texts of the values are joined by a bar, and a bar may also stand in the texts themselves.  When
do two texts join to the same content in both orders?  The shorter one begins the longer one, and
what is left of the longer one stands to the shorter one as before, so that in the end both are
repetitions of a single text with bars between.

* `echo` — a text repeated with bars between;
* `join_comm_iff` — two texts join alike in both orders exactly when both repeat one text;
* `contentHash_swap_iff` — the same for the content hashes of two values.
-/
import Mathlib.Data.List.Basic
import Rollout.Fingerprint

namespace Rollout

variable {xs ys : List Char}

/-! ### Texts that join alike in both orders -/

/-- A text repeated with bars between, once more than the number says. -/
def echo (unit : List Char) : Nat → List Char
  | 0 => unit
  | n + 1 => unit ++ '|' :: echo unit n

theorem echo_join (unit : List Char) (m n : Nat) :
    echo unit m ++ '|' :: echo unit n = echo unit (m + n + 1) := by
  induction m with
  | zero => rw [echo, Nat.zero_add, echo]
  | succ m ih =>
    show unit ++ '|' :: echo unit m ++ '|' :: echo unit n = echo unit (m + 1 + n + 1)
    rw [show m + 1 + n + 1 = (m + n + 1) + 1 by omega, echo, ← ih, List.append_assoc,
      List.cons_append]

/-- Two texts that repeat a single text with bars between. -/
def Echoes (xs ys : List Char) : Prop :=
  ∃ unit m n, xs = echo unit m ∧ ys = echo unit n

theorem Echoes.symm (h : Echoes xs ys) : Echoes ys xs := by
  obtain ⟨unit, m, n, hxs, hys⟩ := h
  exact ⟨unit, n, m, hys, hxs⟩

theorem Echoes.join_comm (h : Echoes xs ys) : xs ++ '|' :: ys = ys ++ '|' :: xs := by
  obtain ⟨unit, m, n, rfl, rfl⟩ := h
  rw [echo_join, echo_join, Nat.add_comm m n]

/-- The shorter of two texts that join alike begins the longer one, with a bar after it. -/
theorem exists_rest_of_join_comm (hlt : xs.length < ys.length)
    (h : xs ++ '|' :: ys = ys ++ '|' :: xs) :
    ∃ rest, ys = xs ++ '|' :: rest ∧ xs ++ '|' :: rest = rest ++ '|' :: xs := by
  have hleft : xs ++ ['|'] <+: ys ++ '|' :: xs := by
    rw [← h]
    exact ⟨ys, by simp⟩
  have hbegin : xs ++ ['|'] <+: ys := by
    refine List.prefix_of_prefix_length_le hleft (List.prefix_append _ _) ?_
    rw [List.length_append, List.length_singleton]
    omega
  obtain ⟨rest, hrest⟩ := hbegin
  have hys : ys = xs ++ '|' :: rest := by
    rw [← hrest, List.append_assoc, List.singleton_append]
  refine ⟨rest, hys, ?_⟩
  -- Both sides of `h` begin with `xs` and a bar.
  rw [hys, List.append_assoc, List.append_cancel_left_eq, List.cons_append, List.cons.injEq] at h
  exact h.2

theorem echoes_of_join_comm (h : xs ++ '|' :: ys = ys ++ '|' :: xs) : Echoes xs ys := by
  -- The induction is on the two lengths together: the rest of the longer text is shorter.
  induction hn : xs.length + ys.length using Nat.strongRecOn generalizing xs ys with
  | ind n ih =>
    have shorter : ∀ {as bs : List Char}, as.length < bs.length →
        as.length + bs.length = n → as ++ '|' :: bs = bs ++ '|' :: as → Echoes as bs := by
      intro as bs hlt hlength hjoin
      obtain ⟨rest, rfl, hrest⟩ := exists_rest_of_join_comm hlt hjoin
      have hless : as.length + rest.length < n := by
        rw [List.length_append, List.length_cons] at hlength
        omega
      obtain ⟨unit, i, j, rfl, rfl⟩ := ih _ hless hrest rfl
      exact ⟨unit, i, i + j + 1, rfl, echo_join unit i j⟩
    rcases Nat.lt_trichotomy xs.length ys.length with hlt | heq | hgt
    · exact shorter hlt hn h
    · obtain ⟨rfl, -⟩ := List.append_inj h heq
      exact ⟨xs, 0, 0, rfl, rfl⟩
    · exact (shorter hgt (by omega) h.symm).symm

/-- Two texts join alike in both orders exactly when both repeat one text. -/
theorem join_comm_iff : xs ++ '|' :: ys = ys ++ '|' :: xs ↔ Echoes xs ys :=
  ⟨echoes_of_join_comm, Echoes.join_comm⟩

theorem echo_eq_unit_of_not_mem {unit : List Char} {n : Nat} (h : '|' ∉ echo unit n) :
    echo unit n = unit := by
  cases n with
  | zero => rfl
  | succ n => exact absurd (by simp [echo]) h

/-- Without a bar in them, only equal texts repeat one text. -/
theorem Echoes.eq_of_not_mem (h : Echoes xs ys) (hxs : '|' ∉ xs) (hys : '|' ∉ ys) : xs = ys := by
  obtain ⟨unit, m, n, rfl, rfl⟩ := h
  rw [echo_eq_unit_of_not_mem hxs, echo_eq_unit_of_not_mem hys]

/-! ### Content hashes -/

theorem toList_joinedContent_pair (a b : Value) :
    (joinedContent [a, b]).toList = a.display.toList ++ '|' :: b.display.toList := by
  have hjoin : joinedContent [a, b] = a.display ++ "|" ++ b.display := rfl
  rw [hjoin, String.toList_append, String.toList_append, List.append_assoc]
  rfl

/-- Different contents with the same leading hexadecimal digits of their digests. -/
def ContentsCollide (count : Int) (s t : String) : Prop :=
  s ≠ t ∧ textHash count s = textHash count t

/-- **The order of two values shows in their content hash, unless their texts repeat one text.**
Their contents are the same in both orders exactly when both texts repeat one text with bars between,
which texts that differ and hold no bar never do.  If the digests of the two contents do not collide,
the same is true of the hashes. -/
theorem contentHash_swap_iff (a b : Value) :
    let content := joinedContent [a, b]
    let swapped := joinedContent [b, a]
    (content = swapped ↔ Echoes a.display.toList b.display.toList) ∧
    (¬ ContentsCollide 32 content swapped →
      (contentHash 32 [a, b] = contentHash 32 [b, a] ↔
        Echoes a.display.toList b.display.toList) ∧
      (a.display ≠ b.display → '|' ∉ a.display.toList → '|' ∉ b.display.toList →
        contentHash 32 [a, b] ≠ contentHash 32 [b, a])) := by
  intro content swapped
  have hcontent : content = swapped ↔ Echoes a.display.toList b.display.toList := by
    rw [← String.toList_inj, toList_joinedContent_pair, toList_joinedContent_pair, join_comm_iff]
  refine ⟨hcontent, fun hcollide => ?_⟩
  have hhash : contentHash 32 [a, b] = contentHash 32 [b, a] ↔
      Echoes a.display.toList b.display.toList := by
    rw [← hcontent]
    constructor
    · intro hsame
      by_contra hne
      exact hcollide ⟨hne, hsame⟩
    · intro hsame
      exact congrArg (textHash 32) hsame
  refine ⟨hhash, fun hne ha hb hsame => hne ?_⟩
  exact String.toList_inj.mp ((hhash.mp hsame).eq_of_not_mem ha hb)

/-- Two letters have digests that do not collide, and other hashes in the other order. -/
theorem contentHash_swap_letters :
    let a : Value := .text "a"
    let b : Value := .text "b"
    ¬ ContentsCollide 32 (joinedContent [a, b]) (joinedContent [b, a]) ∧
      contentHash 32 [a, b] ≠ contentHash 32 [b, a] := by
  intro a b
  have hcollide : ¬ ContentsCollide 32 (joinedContent [a, b]) (joinedContent [b, a]) :=
    fun h => absurd h.2 (by decide +kernel)
  obtain ⟨-, hswap⟩ := contentHash_swap_iff a b
  exact ⟨hcollide, (hswap hcollide).2 (by decide) (by decide) (by decide)⟩

/-- The empty text and a bar are different, and have one content hash in both orders. -/
theorem contentHash_swap_bar :
    (Value.text "").display ≠ (Value.text "|").display ∧
    joinedContent [.text "", .text "|"] = joinedContent [.text "|", .text ""] ∧
    contentHash 32 [.text "", .text "|"] = contentHash 32 [.text "|", .text ""] := by
  have hechoes : Echoes (Value.text "").display.toList (Value.text "|").display.toList :=
    ⟨[], 0, 1, rfl, rfl⟩
  have hcontent : joinedContent [.text "", .text "|"] = joinedContent [.text "|", .text ""] :=
    String.toList_inj.mp (by
      rw [toList_joinedContent_pair, toList_joinedContent_pair]
      exact hechoes.join_comm)
  exact ⟨by decide, hcontent, congrArg (textHash 32) hcontent⟩

end Rollout
