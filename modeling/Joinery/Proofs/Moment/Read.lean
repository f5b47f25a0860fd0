import Joinery.Proofs.Moment.Text

/-!
Moments that were read. Whatever the spelling was, the moment is one of the calendar and its distance
from universal time is one that is read again.
-/
namespace Joinery
open Number

theorem foldl_digits_lt {ds : List Char} (plain : ds.all isPlainDigit = true) (n : Nat) :
    ds.foldl (fun n d => 10 * n + (d.toNat - 0x30)) n < (n + 1) * 10 ^ ds.length := by
  induction ds generalizing n with
  | nil => simp
  | cons d ds ih =>
    simp only [List.all_cons, Bool.and_eq_true] at plain
    obtain ⟨digit, plain⟩ := plain
    simp only [isPlainDigit, Bool.and_eq_true, decide_eq_true_eq] at digit
    have small : d.toNat - 0x30 ≤ 9 := by
      have : d.toNat ≤ 0x39 := digit.2
      omega
    calc List.foldl _ n (d :: ds)
        < (10 * n + (d.toNat - 0x30) + 1) * 10 ^ ds.length := ih plain _
      _ ≤ (10 * (n + 1)) * 10 ^ ds.length := Nat.mul_le_mul_right _ (by omega)
      _ = (n + 1) * 10 ^ (d :: ds).length := by
        rw [List.length_cons, Nat.pow_succ]
        ac_rfl

namespace Moment

theorem takeNumber?_lt {count n : Nat} {cs rest : List Char}
    (read : takeNumber? count cs = some (n, rest)) : n < 10 ^ count := by
  unfold takeNumber? at read
  dsimp only at read
  split at read
  · rename_i digits
    obtain ⟨rfl, -⟩ := Prod.mk.inj (Option.some.inj read)
    have bound := foldl_digits_lt digits.2 0
    rwa [digits.1, Nat.zero_add, Nat.one_mul] at bound
  · cases read

theorem readFraction?_lt {cs : List Char} {more short : Bool} {micro : Nat}
    (read : readFraction? cs more = some (micro, short)) : micro < 1000000 := by
  unfold readFraction? at read
  obtain ⟨⟨n, rest⟩, digits, same⟩ := Option.map_eq_some_iff.mp read
  obtain ⟨rfl, -⟩ := Prod.mk.inj same
  have counted : min 6 cs.length ≤ 6 := Nat.min_le_left _ _
  calc n * 10 ^ (6 - min 6 cs.length)
      < 10 ^ min 6 cs.length * 10 ^ (6 - min 6 cs.length) :=
        Nat.mul_lt_mul_of_pos_right (takeNumber?_lt digits) (by positivity)
    _ = 10 ^ 6 := by rw [← Nat.pow_add, Nat.add_sub_cancel' counted]

theorem readParts?_lt {more : Bool} {left : Nat} {colons : Option Bool} {done parts : List Nat}
    {cs : List Char} {micro : Nat} {short : Bool}
    (read : readParts? more left colons done cs = some (parts, micro, short)) : micro < 1000000 := by
  have fraction {cs : List Char} {done : List Nat}
      (read : (readFraction? cs more).map (fun found => (done, found.1, found.2)) =
        some (parts, micro, short)) : micro < 1000000 := by
    obtain ⟨⟨n, rest⟩, counted, same⟩ := Option.map_eq_some_iff.mp read
    obtain ⟨-, same⟩ := Prod.mk.inj same
    obtain ⟨rfl, -⟩ := Prod.mk.inj same
    exact readFraction?_lt counted
  induction left generalizing colons done cs with
  | zero => exact fraction read
  | succ left ih =>
    rw [readParts?] at read
    obtain ⟨⟨n, rest⟩, -, read⟩ := Option.bind_eq_some_iff.mp read
    dsimp only at read
    split at read
    · obtain ⟨-, same⟩ := Prod.mk.inj (Option.some.inj read)
      obtain ⟨rfl, -⟩ := Prod.mk.inj same
      decide
    · split at read
      · obtain ⟨-, same⟩ := Prod.mk.inj (Option.some.inj read)
        obtain ⟨rfl, -⟩ := Prod.mk.inj same
        decide
      · cases read
    · split at read
      · exact ih read
      · split at read
        · exact fraction read
        · split at read
          · exact ih read
          · cases read

theorem readClock?_lt {cs : List Char} {more : Bool} {clock : Clock}
    (read : readClock? cs more = some clock) : clock.micro < 1000000 := by
  obtain ⟨⟨parts, micro, short⟩, each, rfl⟩ := Option.map_eq_some_iff.mp read
  exact readParts?_lt each

theorem readZone?_settled {cs : List Char} {ahead : Int} (read : readZone? cs = some ahead) :
    settleAhead ahead = ahead := by
  unfold readZone? at read
  split at read
  · obtain rfl := Option.some.inj read
    rfl
  · split at read
    · cases read
    · split at read
      · rename_i hour minute second micro _
        obtain rfl := Option.some.inj read
        simp only [settleAhead, microsPerSecond]
        split <;> split <;> omega
      · cases read
  · cases read

structure TimeRead (clock : Clock) (ahead : Option Int) : Prop where
  micro : clock.micro < 1000000
  settled : ahead.map settleAhead = ahead

theorem readTime?_ok {cs : List Char} {clock : Clock} {ahead : Option Int}
    (read : readTime? cs = some (clock, ahead)) : TimeRead clock ahead := by
  unfold readTime? at read
  dsimp only at read
  split at read
  · cases read
  · rename_i found clocked
    split at read
    · split at read
      · cases read
      · obtain ⟨rfl, rfl⟩ := Prod.mk.inj (Option.some.inj read)
        exact ⟨readClock?_lt clocked, rfl⟩
    · obtain ⟨zone, zoned, same⟩ := Option.map_eq_some_iff.mp read
      obtain ⟨rfl, rfl⟩ := Prod.mk.inj same
      exact ⟨readClock?_lt clocked, congrArg some (readZone?_settled zoned)⟩

theorem readRest?_ok {cs : List Char} {clock : Clock} {ahead : Option Int}
    (read : readRest? cs = some (clock, ahead)) : TimeRead clock ahead := by
  cases cs with
  | nil =>
    obtain ⟨rfl, rfl⟩ := Prod.mk.inj (Option.some.inj read)
    exact ⟨by decide, rfl⟩
  | cons c rest => exact readTime?_ok read

theorem read?_ok {s : String} {m : Moment} (read : read? s = some m) :
    m.Valid ∧ m.settle = m := by
  unfold read? at read
  dsimp only at read
  split at read
  · cases read
  · obtain ⟨date, -, read⟩ := Option.bind_eq_some_iff.mp read
    obtain ⟨⟨clock, ahead⟩, rest, read⟩ := Option.bind_eq_some_iff.mp read
    have time := readRest?_ok rest
    dsimp only at read
    split at read
    · rename_i valid
      obtain rfl := Option.some.inj read
      refine ⟨⟨valid, time.micro⟩, ?_⟩
      simp only [settle, time.settled]
    · cases read

end Moment

end Joinery
