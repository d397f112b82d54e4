import Mathlib.Data.List.Induction
import WordMachine.Proofs.Loading

/-!
# Binary Programs and Reloading

What the binary format keeps, and what a machine keeps when it is loaded again.

The format has no header. Two bytes make a word, the low one first (`Word.LowFirst`), so
every list of bytes is a program and the only thing that reading can lose is a last byte
without a partner. Written and read again, words are what they were; read and written
again, bytes are what they were up to that byte.

Loading is the one operation that resets a machine. It is asked of machines in any state,
also of one that has halted or waits for input, and what it leaves is said field by field
in `Machine.IsFresh`, so that nothing from before can hide in a field that is not listed.
A program that does not fit is refused.

## Main definitions

* `Word.LowFirst`: The words that bytes stand for.
* `Machine.IsFresh`: A machine that has a program and no past.
* `Machine.worn`: A machine that has a past.

## Theorems

* `Word.toBytes_ofBytes`: What is left of bytes that are read and written again.
* `Word.lowFirst_ofBytes`: Bytes are read in pairs, the low one first.
* `Machine.isFresh_loaded`: A machine that has just loaded a program.
* `bytes_kept_and_machine_reset`: The format in both directions, and reloading.
-/

namespace WordMachine

namespace Word

/-- Words that some bytes stand for: one for each two bytes, the low one given first. -/
structure LowFirst (bytes : List UInt8) (words : List Word) : Prop where
  count : words.length = bytes.length / 2
  word : ∀ i lo hi, bytes[2 * i]? = some lo → bytes[2 * i + 1]? = some hi →
    ∃ w, words[i]? = some w ∧ w.toNat = lo.toNat + 256 * hi.toNat

theorem toNat_ofPair (lo hi : UInt8) : (ofPair lo hi).toNat = lo.toNat + 256 * hi.toNat := by
  have hlo := lo.toNat_lt
  have hhi := hi.toNat_lt
  simp only [ofPair, UInt16.toNat_add, UInt16.toNat_mul, UInt8.toNat_toUInt16,
    UInt16.reduceToNat]
  omega

/-- Two bytes are read back from their word. -/
theorem bytes_ofPair (lo hi : UInt8) : bytes (ofPair lo hi) = [lo, hi] := by
  have hlo := lo.toNat_lt
  have hhi := hi.toNat_lt
  have hlow : (ofPair lo hi).toUInt8 = lo := by
    apply UInt8.toNat_inj.mp
    rw [UInt16.toNat_toUInt8, toNat_ofPair]
    omega
  have hhigh : (ofPair lo hi / 256).toUInt8 = hi := by
    apply UInt8.toNat_inj.mp
    have hbase : (256 : UInt16).toNat = 256 := rfl
    rw [UInt16.toNat_toUInt8, UInt16.toNat_div, toNat_ofPair, hbase]
    omega
  rw [bytes, hlow, hhigh]

theorem length_ofBytes (bytes : List UInt8) : (ofBytes bytes).length = bytes.length / 2 := by
  induction bytes using List.twoStepInduction with
  | nil => rfl
  | singleton b => simp [ofBytes]
  | cons_cons lo hi rest ih _ =>
      simp only [ofBytes, List.length_cons, ih]
      omega

/-- Bytes that are read and written again are the bytes that make whole words. -/
theorem toBytes_ofBytes_eq_take (bytes : List UInt8) :
    toBytes (ofBytes bytes) = bytes.take (2 * (bytes.length / 2)) := by
  induction bytes using List.twoStepInduction with
  | nil => rfl
  | singleton b => simp [ofBytes, toBytes]
  | cons_cons lo hi rest ih _ =>
      have hlength : 2 * ((rest.length + 1 + 1) / 2) = 2 * (rest.length / 2) + 1 + 1 := by omega
      rw [ofBytes, toBytes, List.flatMap_cons, bytes_ofPair, ← toBytes, ih, List.length_cons,
        List.length_cons, hlength, List.take_succ_cons, List.take_succ_cons]
      rfl

/-- Bytes that are read and written again are what they were, less a last one without a
    partner. -/
theorem toBytes_ofBytes (bytes : List UInt8) :
    toBytes (ofBytes bytes) = if bytes.length % 2 = 1 then bytes.dropLast else bytes := by
  rw [toBytes_ofBytes_eq_take]
  split
  · rw [List.dropLast_eq_take]
    congr 1
    omega
  · rw [List.take_of_length_le (by omega)]

theorem lowFirst_ofBytes (bytes : List UInt8) : LowFirst bytes (ofBytes bytes) where
  count := length_ofBytes bytes
  word := by
    induction bytes using List.twoStepInduction with
    | nil => rintro i _ _ ⟨⟩
    | singleton b => rintro i _ _ _ ⟨⟩
    | cons_cons lo hi rest ih _ =>
        intro i
        cases i with
        | zero =>
            rintro _ _ ⟨⟩ ⟨⟩
            exact ⟨ofPair lo hi, rfl, toNat_ofPair lo hi⟩
        | succ i => exact ih i

end Word

namespace Machine

/-- A machine that has a program at address zero and in which nothing has happened. -/
structure IsFresh (m : Machine) (words : List Word) : Prop where
  ip : m.ip = 0
  registers : m.registers.toList = List.replicate registerCount 0
  memory : m.memory.cells.toList = words ++ List.replicate (memorySize - words.length) 0
  stack : m.stack = []
  wordCount : m.wordCount = words.length
  halted : m.halted = false
  input : m.input = .idle

theorem isFresh_loaded {words : List Word} (h : words.length ≤ memorySize) :
    (loaded (Memory.image words) words).IsFresh words where
  ip := rfl
  registers := Vector.toList_replicate
  memory := Memory.toList_image h
  stack := rfl
  wordCount := rfl
  halted := rfl
  input := rfl

theorem result_load_eq_ok_iff (m : Machine) (words : List Word) :
    (m.load words).result = .ok () ↔ words.length ≤ memorySize := by
  by_cases h : words.length ≤ memorySize
  · simp [load_of_le h, h]
  · simp [load_eq, Memory.load, h]

end Machine

/-- Words survive the format and bytes do up to a last one without a partner, and reading
    takes the low byte first. A machine in any state loads exactly the bytes that make no
    more words than it has cells, and is then what a new machine made from them is, with
    nothing left of what it was. -/
theorem bytes_kept_and_machine_reset :
    (∀ words, Word.ofBytes (Word.toBytes words) = words) ∧
    (∀ bytes, Word.toBytes (Word.ofBytes bytes) =
      if bytes.length % 2 = 1 then bytes.dropLast else bytes) ∧
    (∀ bytes, Word.LowFirst bytes (Word.ofBytes bytes)) ∧
    ∀ (m : Machine) (bytes : List UInt8),
      ((m.loadBytes bytes).result = .ok () ↔ bytes.length / 2 ≤ memorySize) ∧
      ((m.loadBytes bytes).result = .ok () →
        Machine.ofBytes bytes = .ok (m.loadBytes bytes).machine ∧
          (m.loadBytes bytes).machine.IsFresh (Word.ofBytes bytes)) := by
  refine ⟨Word.ofBytes_toBytes, Word.toBytes_ofBytes, Word.lowFirst_ofBytes, fun m bytes => ?_⟩
  have hiff : (m.loadBytes bytes).result = .ok () ↔ bytes.length / 2 ≤ memorySize := by
    rw [Machine.loadBytes, Machine.result_load_eq_ok_iff, Word.length_ofBytes]
  refine ⟨hiff, fun hok => ?_⟩
  have hfit : (Word.ofBytes bytes).length ≤ memorySize := by
    rw [Word.length_ofBytes]
    exact hiff.mp hok
  rw [Machine.ofBytes, Machine.ofWords_of_le hfit, Machine.loadBytes, Machine.load_of_le hfit]
  exact ⟨rfl, Machine.isFresh_loaded hfit⟩

/-- A machine with a past, which has halted and waits for input and in which no field is as
    in a new one. -/
def Machine.worn : Machine where
  ip := 7
  registers := Vector.replicate registerCount 11
  memory := Memory.empty.write 9 5
  stack := [3, 4]
  wordCount := 10
  halted := true
  input := .pending 7 (.register 0)

/-- Three bytes loaded into a machine with a past: one word and nothing else is left. -/
theorem bytes_kept_and_machine_reset_worn :
    Machine.worn.memory.read 9 = 5 ∧ (Machine.worn.loadBytes [6, 128, 255]).result = .ok () ∧
      Machine.ofBytes [6, 128, 255] = .ok (Machine.worn.loadBytes [6, 128, 255]).machine ∧
      (Machine.worn.loadBytes [6, 128, 255]).machine.IsFresh [32774] := by
  have hreload := bytes_kept_and_machine_reset.2.2.2 Machine.worn [6, 128, 255]
  have hok := hreload.1.mpr (by decide)
  have hread : Machine.worn.memory.read 9 = 5 := by
    rw [Machine.worn, Memory.read_write, if_pos rfl]
  exact ⟨hread, hok, hreload.2 hok⟩

end WordMachine
