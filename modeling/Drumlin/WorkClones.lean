import Drumlin.Work

/-!
# Parts of one work

`Token::clone` (work.cpp) makes the token of the next part.  The part is a 64-bit number.
-/

namespace Drumlin

namespace Work

/-- `Token::clone`. -/
def Token.clone (token : Token) : Token := { token with part := token.part + 1 }

/-- A token and its clones, each made from the one before. -/
def clones (token : Token) (count : Nat) : List Token :=
  (List.range count).map fun part => Token.clone^[part] token

theorem clones_succ (token : Token) (count : Nat) :
    clones token (count + 1) = clones token count ++ [Token.clone^[count] token] := by
  rw [clones, List.range_succ, List.map_append, List.map_singleton, clones]

theorem clone_iterate (token : Token) (part : Nat) :
    Token.clone^[part] token = { token with part := token.part + UInt64.ofNat part } := by
  induction part with
  | zero => simp
  | succ part induction =>
      rw [Function.iterate_succ_apply', induction, Token.clone]
      simp [UInt64.ofNat_add, UInt64.add_assoc]

/-- The parts come again after 2^64 clones, and not before. -/
theorem clone_iterate_eq_iff (token : Token) (part other : Nat) :
    Token.clone^[part] token = Token.clone^[other] token ↔ part % 2 ^ 64 = other % 2 ^ 64 := by
  rw [clone_iterate, clone_iterate]
  simp [Token.mk.injEq, ← UInt64.toNat_inj]

theorem mem_clones_iff (token : Token) (count part : Nat) (below : count ≤ 2 ^ 64) :
    Token.clone^[part] token ∈ clones token count ↔ part % 2 ^ 64 < count := by
  simp only [clones, List.mem_map, List.mem_range, clone_iterate_eq_iff]
  constructor
  · rintro ⟨other, less, same⟩
    rw [← same, Nat.mod_eq_of_lt (less.trans_le below)]
    exact less
  · intro less
    exact ⟨part % 2 ^ 64, less, Nat.mod_mod _ _⟩

/-- The tokens set for a work and its clones. -/
theorem tokens_clones (token : Token) (count : Nat) :
    (((clones token count).map Store.Call.setWork).foldl Ledger.call .start).tokens =
      clones token (min count (2 ^ 64)) := by
  induction count with
  | zero => rfl
  | succ count induction =>
      rw [clones_succ, List.map_append, List.foldl_append, List.map_singleton, List.foldl_cons,
        List.foldl_nil, Ledger.call, induction]
      have seen := mem_clones_iff token (min count (2 ^ 64)) count (min_le_right _ _)
      rcases lt_or_ge count (2 ^ 64) with less | more
      · have fresh : Token.clone^[count] token ∉ clones token (min count (2 ^ 64)) := by
          rw [seen, Nat.mod_eq_of_lt less, min_eq_left less.le]
          exact lt_irrefl count
        rw [if_neg fresh, min_eq_left less.le, min_eq_left (Nat.succ_le_of_lt less), clones_succ]
      · have again : Token.clone^[count] token ∈ clones token (min count (2 ^ 64)) := by
          rw [seen, min_eq_right more]
          exact Nat.mod_lt _ (by decide)
        rw [if_pos again, induction, min_eq_right more, min_eq_right (more.trans (Nat.le_succ _))]

/-- A store that is given a token and its clones, one after another, queues each of them once, in
order, up to 2^64 of them; from there on the clones are tokens that it has seen. -/
theorem setWork_clones (token : Token) (count : Nat) :
    ∃ store, Runs.exec Store.call .start ((clones token count).map Store.Call.setWork) =
      some store ∧ store.workQueue = clones token (min count (2 ^ 64)) :=
  ⟨_, Ledger.exec_realize Ledger.sound_start _, tokens_clones token count⟩

end Work

end Drumlin
