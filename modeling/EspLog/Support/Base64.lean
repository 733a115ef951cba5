import Mathlib.Data.List.Basic

/-! The encoding of bytes by 64 characters, without line ends, and that it loses nothing. -/

namespace EspLog.Base64

def symbol (n : Nat) : UInt8 :=
  UInt8.ofNat (if n < 26 then 65 + n else if n < 52 then 71 + n else if n < 62 then n - 4
    else if n = 62 then 43 else 47)

def padding : UInt8 := 61

def group (a b c : UInt8) : List UInt8 :=
  [symbol (a.toNat / 4), symbol (a.toNat % 4 * 16 + b.toNat / 16), symbol (b.toNat % 16 * 4 + c.toNat / 64),
    symbol (c.toNat % 64)]

def encode : List UInt8 → List UInt8
  | [] => []
  | [a] => (group a 0 0).take 2 ++ [padding, padding]
  | [a, b] => (group a b 0).take 3 ++ [padding]
  | a :: b :: c :: rest => group a b c ++ encode rest

section Symbols

def value (b : UInt8) : Nat :=
  if b = 43 then 62 else if b = 47 then 63 else if b.toNat < 65 then b.toNat + 4
    else if b.toNat < 91 then b.toNat - 65 else b.toNat - 71

theorem value_symbol (n : Nat) (small : n < 64) : value (symbol n) = n := by
  have each : ∀ n < 64, value (symbol n) = n := by decide
  exact each n small

theorem symbol_injective {m n : Nat} (small : m < 64) (small' : n < 64) (same : symbol m = symbol n) : m = n := by
  rw [← value_symbol m small, same, value_symbol n small']

theorem symbol_visible (n : Nat) (small : n < 64) : 32 < symbol n := by
  have each : ∀ n < 64, 32 < symbol n := by decide
  exact each n small

theorem symbol_ne_padding (n : Nat) (small : n < 64) : symbol n ≠ padding := by
  have each : ∀ n < 64, symbol n ≠ padding := by decide
  exact each n small

end Symbols

section Groups
variable {a b c a' b' c' : UInt8}

theorem first_symbols (first : symbol (a.toNat / 4) = symbol (a'.toNat / 4))
    (second : symbol (a.toNat % 4 * 16 + b.toNat / 16) = symbol (a'.toNat % 4 * 16 + b'.toNat / 16)) :
    a = a' ∧ b.toNat / 16 = b'.toNat / 16 := by
  have size := a.toNat_lt
  have size' := a'.toNat_lt
  have small := b.toNat_lt
  have small' := b'.toNat_lt
  have high := symbol_injective (by omega) (by omega) first
  have low := symbol_injective (by omega) (by omega) second
  refine ⟨UInt8.toNat_inj.mp ?_, ?_⟩
  all_goals omega

theorem third_symbol (high : b.toNat / 16 = b'.toNat / 16)
    (third : symbol (b.toNat % 16 * 4 + c.toNat / 64) = symbol (b'.toNat % 16 * 4 + c'.toNat / 64)) :
    b = b' ∧ c.toNat / 64 = c'.toNat / 64 := by
  have size := b.toNat_lt
  have size' := b'.toNat_lt
  have small := c.toNat_lt
  have small' := c'.toNat_lt
  have low := symbol_injective (by omega) (by omega) third
  refine ⟨UInt8.toNat_inj.mp ?_, ?_⟩
  all_goals omega

theorem last_symbol (high : c.toNat / 64 = c'.toNat / 64)
    (last : symbol (c.toNat % 64) = symbol (c'.toNat % 64)) : c = c' := by
  have size := c.toNat_lt
  have size' := c'.toNat_lt
  have low := symbol_injective (by omega) (by omega) last
  apply UInt8.toNat_inj.mp
  omega

end Groups

section Texts

theorem encode_nil : encode [] = [] := rfl

theorem encode_one (a : UInt8) :
    encode [a] = [symbol (a.toNat / 4), symbol (a.toNat % 4 * 16 + (0 : UInt8).toNat / 16), padding,
      padding] := rfl

theorem encode_two (a b : UInt8) : encode [a, b] = [symbol (a.toNat / 4), symbol (a.toNat % 4 * 16 + b.toNat / 16),
    symbol (b.toNat % 16 * 4 + (0 : UInt8).toNat / 64), padding] := rfl

theorem encode_more (a b c : UInt8) (rest : List UInt8) : encode (a :: b :: c :: rest) = symbol (a.toNat / 4) ::
    symbol (a.toNat % 4 * 16 + b.toNat / 16) :: symbol (b.toNat % 16 * 4 + c.toNat / 64) ::
      symbol (c.toNat % 64) ::
      encode rest := rfl

theorem padded (n : Nat) (small : n < 64) {P : Prop} : symbol n = padding → P := by
  intro same
  exact absurd same (symbol_ne_padding n small)

/-- Different bytes have different texts. -/
theorem encode_injective : Function.Injective encode := by
  intro s
  induction size : s.length using Nat.strongRecOn generalizing s with
  | ind n ih =>
    intro other same
    rcases s with _ | ⟨a, _ | ⟨b, _ | ⟨c, rest⟩⟩⟩ <;>
    rcases other with _ | ⟨a', _ | ⟨b', _ | ⟨c', rest'⟩⟩⟩
    all_goals simp only [encode_nil, encode_one, encode_two, encode_more, List.cons.injEq, reduceCtorEq] at same
    · rfl
    · rw [(first_symbols same.1 same.2.1).1]
    · exact padded _ (by have := b'.toNat_lt; simp; omega) same.2.2.1.symm
    · exact padded _ (by have := c'.toNat_lt; omega) same.2.2.2.1.symm
    · exact padded _ (by have := b.toNat_lt; simp; omega) same.2.2.1
    · obtain ⟨first, high⟩ := first_symbols same.1 same.2.1
      rw [first, (third_symbol high same.2.2.1).1]
    · exact padded _ (by have := c'.toNat_lt; omega) same.2.2.2.1.symm
    · exact padded _ (by have := c.toNat_lt; omega) same.2.2.2.1
    · exact padded _ (by have := c.toNat_lt; omega) same.2.2.2.1
    · obtain ⟨first, high⟩ := first_symbols same.1 same.2.1
      obtain ⟨second, top⟩ := third_symbol high same.2.2.1
      have later := ih rest.length (by simp only [← size, List.length_cons]; omega) rfl same.2.2.2.2
      rw [first, second, last_symbol top same.2.2.2.1, later]

theorem encode_visible (s : List UInt8) : ∀ b ∈ encode s, 32 < b := by
  have shown (n : Nat) (small : n < 64) : 32 < symbol n := symbol_visible n small
  fun_induction encode s with
  | case1 => simp
  | case2 a =>
    have size := a.toNat_lt
    simp only [group, List.take, List.cons_append, List.nil_append, List.forall_mem_cons]
    exact ⟨shown _ (by omega), shown _ (by simp; omega), by decide, by decide, by simp⟩
  | case3 a b =>
    have size := a.toNat_lt
    have size' := b.toNat_lt
    simp only [group, List.take, List.cons_append, List.nil_append, List.forall_mem_cons]
    exact ⟨shown _ (by omega), shown _ (by omega), shown _ (by simp; omega), by decide, by simp⟩
  | case4 a b c rest ih =>
    have size := a.toNat_lt
    have size' := b.toNat_lt
    have size'' := c.toNat_lt
    simp only [group, List.cons_append, List.nil_append, List.forall_mem_cons]
    exact ⟨shown _ (by omega), shown _ (by omega), shown _ (by omega), shown _ (by omega), ih⟩

end Texts

end EspLog.Base64
