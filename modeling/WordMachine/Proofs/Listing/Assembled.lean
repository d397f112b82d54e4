import WordMachine.Proofs.Assembly.Exact
import WordMachine.Proofs.Listing.RoundTrip

/-!
# Listings of Assembled Programs

The listing of a program that was assembled assembles to that program.

The walk knows nothing of the lines that a program was made from. It finds them all
the same, because an instruction line is encoded in exactly the words that the walk
passes in one step, and so is a word of data that is no opcode. `IsStride` names such
words, and a program that is cut into strides is walked along the cuts
(`Machine.walk_of_strides`), whatever the strides are.

A word of data that is an opcode can take the words after it for its operands, and
the walk is then out of step with the lines. The opcodes are the words below 22, so
data from there on is safe. This is the one thing that a source has to promise, in
`Passes.LargeData`. Operands need no promise: the assembler encodes none that could
not be written again.

## Main definitions

* `IsStride`: Words that a walk passes in one step.
* `strideStarts`: Where each of some strides starts.
* `Layout.offsets`: Where the instruction lines among some lines are placed.
* `Passes.LargeData`: No word of data is an opcode.
* `Passes.strides`: The strides that a program consists of.

## Theorems

* `Machine.walk_of_strides`: A walk over strides.
* `Encoding.isStride_of_encodeLine`: A line is encoded in a stride.
* `Layout.offsets_eq`: Instructions are placed where their words start.
* `Passes.walk_of_largeData`: The walk over a program without opcodes among its data.
* `assemble_listing_of_assembled`: Assembling, listing and assembling again.
-/

namespace WordMachine

/-! ### Strides -/

/-- Words that a walk passes in one step and that can be written as one line: an opcode
    with its operands, which all encode operands, or a word that is no opcode. -/
inductive IsStride : List Word → Prop
  | instruction (op : Opcode) (operands : List Word) (length : operands.length = op.arity)
      (encodes : ∀ w ∈ operands, w ≤ Operand.maxWord) : IsStride (op.word :: operands)
  | raw (w : Word) (h : Opcode.ofWord? w = none) : IsStride [w]

/-- Where each of some strides starts, the first of them at `start`. -/
def strideStarts : Nat → List (List Word) → List Nat
  | _, [] => []
  | start, words :: rest => start :: strideStarts (start + words.length) rest

theorem strideStarts_append (start : Nat) (first rest : List (List Word)) :
    strideStarts start (first ++ rest) =
      strideStarts start first ++ strideStarts (start + first.flatten.length) rest := by
  induction first generalizing start with
  | nil => rfl
  | cons words first ih =>
      rw [List.cons_append, strideStarts, strideStarts, ih, List.cons_append, List.flatten_cons,
        List.length_append, Nat.add_assoc]

/-- Single words start at every address. -/
theorem strideStarts_singletons (start : Nat) (words : List Word) :
    strideStarts start (words.map ([·])) = List.range' start words.length := by
  induction words generalizing start with
  | nil => rfl
  | cons w rest ih =>
      rw [List.map_cons, strideStarts, List.length_singleton, ih, List.length_cons,
        List.range'_succ]

namespace IsStride

variable {memory : Memory} {address : Nat} {words : List Word}

theorem length_pos (h : IsStride words) : 0 < words.length := by
  cases h with
  | instruction op operands _ _ => exact Nat.zero_lt_succ _
  | raw w _ => exact Nat.zero_lt_one

/-- The instruction at an address where a stride stands is the stride. -/
theorem sizeAt_eq (h : IsStride words) (hfit : address + words.length ≤ memorySize)
    (hslice : memory.slice address words.length = words) :
    Instruction.sizeAt memory (UInt16.ofNat address) = words.length := by
  have hpos := h.length_pos
  unfold Instruction.sizeAt
  cases h with
  | instruction op operands hlength _ =>
      rw [List.length_cons, memory.slice_succ _ (by omega), List.cons.injEq] at hslice
      rw [hslice.1, Opcode.ofWord?_word, List.length_cons, hlength]
      exact op.size_eq.trans (Nat.add_comm 1 op.arity)
  | raw w hraw =>
      rw [List.length_singleton, memory.slice_succ 0 (by omega), List.cons.injEq] at hslice
      rw [hslice.1, hraw, List.length_singleton]

/-- The operand words of a stride encode operands. -/
theorem operands_le (h : IsStride words) (hfit : address + words.length ≤ memorySize)
    (hslice : memory.slice address words.length = words) {w : Word}
    (hw : w ∈ (Instruction.decode memory (UInt16.ofNat address)).operands) :
    w ≤ Operand.maxWord := by
  have hsize := h.sizeAt_eq hfit hslice
  have hwords := Instruction.words_decode memory (by rw [hsize]; exact hfit)
  rw [hsize, hslice, Instruction.words] at hwords
  cases h with
  | instruction op operands _ hencodes =>
      rw [List.cons.injEq] at hwords
      exact hencodes w (hwords.2 ▸ hw)
  | raw v _ =>
      rw [List.cons.injEq] at hwords
      rw [hwords.2] at hw
      exact absurd hw List.not_mem_nil

end IsStride

/-- A program that is cut into strides is walked along the cuts, to its end, and its
    operand words encode operands. -/
theorem Machine.walk_of_strides {m : Machine} {strides : List (List Word)} {start : Nat}
    (hcount : m.wordCount ≤ memorySize) (hstart : start ≤ m.wordCount)
    (hall : ∀ words ∈ strides, IsStride words)
    (hslice : m.memory.slice start (m.wordCount - start) = strides.flatten) :
    m.walk start = strideStarts start strides ∧ m.walkEnd start = m.wordCount ∧
      ∀ address ∈ m.walk start, ∀ w ∈ (m.decode (UInt16.ofNat address)).operands,
        w ≤ Operand.maxWord := by
  -- What is left of the program is as long as what is left of the strides.
  have hlength := m.memory.length_slice (show start + (m.wordCount - start) ≤ memorySize by omega)
  rw [hslice] at hlength
  induction strides generalizing start with
  | nil =>
      have hend : m.wordCount ≤ start := by
        rw [List.flatten_nil, List.length_nil] at hlength
        omega
      rw [walk_of_le hend, walkEnd_of_le hend]
      exact ⟨rfl, by omega, fun _ h => absurd h List.not_mem_nil⟩
  | cons words rest ih =>
      have hstride := hall words List.mem_cons_self
      have hpos := hstride.length_pos
      rw [List.flatten_cons, List.length_append] at hlength
      have hlt : start < m.wordCount := by omega
      -- The first words of what is left are the first stride.
      have hsum : m.wordCount - start = words.length + (m.wordCount - (start + words.length)) := by
        omega
      rw [hsum, m.memory.slice_append, List.flatten_cons] at hslice
      rcases List.append_inj hslice (m.memory.length_slice (by omega)) with ⟨hfirst, hrest⟩
      have hsize : m.sizeAt (UInt16.ofNat start) = words.length :=
        hstride.sizeAt_eq (by omega) hfirst
      rcases ih (by omega) (fun words h => hall words (List.mem_cons_of_mem _ h)) hrest (by omega)
        with ⟨hwalk, hend, hoperands⟩
      rw [walk_of_lt hlt, walkEnd_of_lt hlt, hsize, List.forall_mem_cons]
      refine ⟨by rw [hwalk, strideStarts], hend, ?_, hoperands⟩
      intro w hw
      exact hstride.operands_le (by omega) hfirst hw

/-! ### Lines as strides -/

namespace Opcode

/-- A word from the number of opcodes on is no opcode. -/
theorem ofWord?_eq_none_of_le {w : Word} (h : 22 ≤ w) : ofWord? w = none :=
  List.getElem?_eq_none (UInt16.le_iff_toNat_le.mp h)

end Opcode

namespace Operand

/-- A token is only ever read as a word that encodes an operand. -/
theorem le_of_parse {token : Text} {w : Word} (h : parse token = .ok w) : w ≤ maxWord := by
  unfold parse at h
  split at h
  · split at h
    · rename_i index n _
      split at h
      · rename_i hlt
        cases h
        -- The registers are the last words that encode operands.
        have hbase : registerBase.toNat = 32768 := rfl
        have hmax : maxWord.toNat = 32775 := rfl
        rw [UInt16.le_iff_toNat_le, UInt16.toNat_add, hbase, hmax]
        change n.toNat < 8 at hlt
        omega
      · cases h
    · cases h
  · split at h
    · split at h
      · rename_i hle
        cases h
        exact hle
      · cases h
    · cases h

end Operand

namespace Encoding

/-- An encoded line is a stride, if it does not give a word that is an opcode. -/
theorem isStride_of_encodeLine {line : Line} {words : List Word}
    (h : encodeLine line = .ok words) (hraw : line.statement = .raw → ∀ w ∈ words, 22 ≤ w) :
    IsStride words := by
  rcases (encodeLine_eq_ok_iff _ _).mp h with ⟨hhead, hlength, hwords⟩ |
    ⟨hhead, op, operands, hop, hlength, hoperands, rfl⟩
  · have hstatement : line.statement = .raw := by
      rw [Line.statement_of_not_isLabel (isLabel_of_rawName hhead), if_pos hhead]
    -- A raw word is all that its line is encoded in.
    rw [hwords.length_eq] at hlength
    rcases List.length_eq_one_iff.mp hlength with ⟨w, rfl⟩
    exact IsStride.raw w
      (Opcode.ofWord?_eq_none_of_le (hraw hstatement w List.mem_cons_self))
  · refine IsStride.instruction op operands (hoperands.length_eq ▸ hlength) fun w hw => ?_
    rcases List.forall₂_iff_get.mp hoperands with ⟨hsame, hget⟩
    rcases List.get_of_mem hw with ⟨⟨i, hi⟩, rfl⟩
    exact Operand.le_of_parse ((mapError_eq_ok_iff _ _ _).mp (hget i (by omega) hi))

end Encoding

/-! ### Where lines are placed -/

namespace Layout

/-- Where the instruction lines among some lines are placed: each at the size of the
    layout before it. -/
def offsets (layout : Layout) : List Line → List Nat
  | [] => []
  | line :: rest =>
    match layout.place line with
    | .ok next => if line.isLabel then next.offsets rest else layout.size :: next.offsets rest
    | .error _ => layout.offsets rest

/-- Instruction lines are placed where the words they are encoded in start. -/
theorem offsets_eq {layout final : Layout} {lines : List Line} {encoded : List (List Word)}
    (h : lines.foldlM place layout = .ok final)
    (hencoded : List.Forall₂ (fun line words => line.isLabel = false ∧ line.statement ≠ .unknown ∧
      line.size = words.length) (lines.filter (!·.isLabel)) encoded) :
    layout.offsets lines = strideStarts layout.size encoded := by
  induction lines generalizing layout encoded with
  | nil =>
      rw [List.filter_nil, List.forall₂_nil_left_iff] at hencoded
      rw [hencoded]
      rfl
  | cons line rest ih =>
      rw [List.foldlM_cons] at h
      rcases (bind_eq_ok_iff _ _ _).mp h with ⟨next, hplace, hrest⟩
      simp only [offsets, hplace]
      rcases (place_eq_ok_iff _ _ _).mp hplace with ⟨name, hname, hlabel⟩ | ⟨hlabel, _, rfl⟩
      · -- A label takes no room and has no words.
        have hisLabel := line.isLabel_iff.mpr ⟨name, hname⟩
        rw [List.filter_cons_of_neg (by simp [hisLabel])] at hencoded
        rw [if_pos hisLabel, ih hrest hencoded]
        rcases (placeLabel_eq_ok_iff _ _ _ _).mp hlabel with ⟨_, _, _, _, rfl⟩
        rfl
      · rw [List.filter_cons_of_pos (by simp [hlabel])] at hencoded
        rcases List.forall₂_cons_left_iff.mp hencoded with
          ⟨words, encoded', ⟨_, _, hsize⟩, hencoded', rfl⟩
        rw [if_neg (by simp [hlabel]), ih hrest hencoded', strideStarts, ← hsize]

end Layout

namespace Passes

variable {source : Text}

/-- No word of data is an opcode, whether it is given in a raw line or declared. -/
structure LargeData (t : Passes source) : Prop where
  /-- Raw lines are encoded in words that are no opcodes. -/
  raw : List.Forall₂ (fun line words => line.statement = .raw → ∀ w ∈ words, 22 ≤ w)
    t.instructions t.encoded
  /-- Blocks that are not empty are filled with words that are no opcodes. -/
  data : ∀ d ∈ t.declarations, d.count ≠ 0 → 22 ≤ d.value

/-- The strides of a program: the words of each line, and then each word of data. -/
def strides (t : Passes source) : List (List Word) :=
  t.encoded ++ (t.declarations.flatMap Declaration.words).map ([·])

theorem flatten_strides (t : Passes source) : t.strides.flatten = t.program.words := by
  rw [strides, List.flatten_append, ← List.flatMap_def, List.flatMap_singleton', program]

/-- Without opcodes among its data, a program consists of strides. -/
theorem isStride_of_mem {t : Passes source} (h : t.LargeData) {words : List Word}
    (hwords : words ∈ t.strides) : IsStride words := by
  rcases List.mem_append.mp hwords with hwords | hwords
  · -- A line that is resolved is still the same statement.
    have hstride : List.Forall₂ (fun _ words => IsStride words) t.instructions t.encoded := by
      refine h.raw.mp (fun line words hraw => ?_) t.forall₂_encoded
      rintro ⟨resolved, hresolve, hencode⟩
      rw [← Line.statement_congr (Reference.parts_of_resolveLine hresolve).1] at hraw
      exact Encoding.isStride_of_encodeLine hencode hraw
    rcases List.forall₂_iff_get.mp hstride with ⟨hlength, hget⟩
    rcases List.get_of_mem hwords with ⟨⟨i, hi⟩, rfl⟩
    exact hget i (by omega) hi
  · rcases List.mem_map.mp hwords with ⟨w, hw, rfl⟩
    rcases List.mem_flatMap.mp hw with ⟨d, hd, hw⟩
    rcases List.mem_replicate.mp hw with ⟨hcount, rfl⟩
    have hne : d.count ≠ 0 := fun hzero => hcount (by rw [hzero]; rfl)
    exact IsStride.raw _ (Opcode.ofWord?_eq_none_of_le (h.data d hd hne))

/-- The strides start where the instruction lines are placed and at every word of
    data. -/
theorem strideStarts_strides (t : Passes source) :
    strideStarts 0 t.strides = Layout.empty.offsets t.expanded ++
      List.range' t.program.codeSize t.program.dataSize := by
  have hoffsets := Layout.offsets_eq t.foldlM_place (t.instructions_eq ▸ t.forall₂_size)
  have hdata : t.program.dataSize = (t.declarations.flatMap Declaration.words).length := by
    rw [Program.dataSize, t.length_words, Nat.add_sub_cancel_left]
  rw [strides, strideStarts_append, strideStarts_singletons, hoffsets, hdata,
    t.codeSize_eq_length, Nat.zero_add]
  rfl

/-- A program without opcodes among its data, once loaded, is walked stride by
    stride. -/
theorem walk_of_largeData {t : Passes source} (h : t.LargeData) {m : Machine}
    (hload : Machine.ofWords t.program.words = .ok m) :
    m.boundaries = Layout.empty.offsets t.expanded ++
        List.range' t.program.codeSize t.program.dataSize ∧
      m.walkEnd 0 = m.wordCount ∧ m.Encodable := by
  have hcount : m.wordCount = t.program.words.length := (Machine.read_of_ofWords hload).1
  have hslice := Machine.slice_of_ofWords hload
  rw [← t.strideStarts_strides]
  refine Machine.walk_of_strides ?_ (Nat.zero_le _) (fun _ => isStride_of_mem h) ?_
  · rw [hcount]
    exact t.length_words_le
  · rw [Nat.sub_zero, hslice, t.flatten_strides]

end Passes

/-- A loaded program whose walk ends with it, and whose operand words encode operands,
    is the program that its listing assembles to. -/
theorem Listing.exists_assemble_of_ofWords {words : List Word} {m : Machine}
    (hload : Machine.ofWords words = .ok m) (hencodable : m.Encodable)
    (hend : m.walkEnd 0 = m.wordCount) (options : Options) :
    ∃ q, assemble (Text.unlines (disassemble m options)) = .ok q ∧ q.words = words := by
  have hfit : m.wordCount ≤ memorySize := by
    rw [(Machine.read_of_ofWords hload).1]
    exact ((Machine.ofWords_eq_ok_iff _ _).mp hload).1
  rcases exists_assemble_eq_ok_iff m options hfit with ⟨symbols, hassemble⟩
  refine ⟨_, (hassemble _).mpr ⟨⟨hencodable, hend ▸ hfit⟩, rfl⟩, ?_⟩
  -- The words of the walk cover the program, which is all that was loaded.
  have hwords := m.flatMap_words_walk 0 (hend ▸ hfit)
  rw [hend, Nat.sub_zero, Machine.slice_of_ofWords hload] at hwords
  exact hwords

/-- A source whose data holds no opcodes is walked line by line: the boundaries of its
    program are where its instructions were placed, then every word of data, up to the
    end. Whatever the options, the listing assembles to the same words. -/
theorem assemble_listing_of_assembled {source : Text} {p : Program}
    (h : assemble source = .ok p) :
    Nonempty (Passes source) ∧ ∀ t : Passes source, t.LargeData →
      ∃ m, Machine.ofBytes p.bytes = .ok m ∧
        m.boundaries =
          Layout.empty.offsets t.expanded ++ List.range' p.codeSize p.dataSize ∧
        m.walkEnd 0 = p.words.length ∧
        ∀ options, ∃ q, assemble (Text.unlines (disassemble m options)) = .ok q ∧
          q.words = p.words := by
  refine ⟨((assemble_eq_ok_iff _ _).mp h).nonempty, fun t hlarge => ?_⟩
  -- There is only one program that a source describes.
  have hp : t.program = p :=
    Except.ok.inj (((assemble_eq_ok_iff _ _).mpr ⟨t, rfl⟩).symm.trans h)
  subst hp
  have hload := Machine.ofWords_of_le t.length_words_le
  rcases Passes.walk_of_largeData hlarge hload with ⟨hwalk, hend, hencodable⟩
  exact ⟨_, Machine.ofBytes_toBytes t.length_words_le, hwalk, hend,
    Listing.exists_assemble_of_ofWords hload hencodable hend⟩

/-- A shorthand, a label, a raw word and a block of data. -/
def rawAndData : Text := "!print `A`\n:a\nJMP :a\n?? 40000\n.b 99 2\nSET r0 .b".toList

/-- What the passes hand on when it is assembled. -/
def rawAndDataPasses : Passes rawAndData where
  code := [⟨1, "!print `A`".toList⟩, ⟨2, ":a".toList⟩, ⟨3, "JMP :a".toList⟩,
    ⟨4, "?? 40000".toList⟩, ⟨6, "SET r0 .b".toList⟩]
  declarations := [⟨['b'], 99, 2, 5⟩]
  expanded := [⟨1, "OUT 65".toList⟩, ⟨2, ":a".toList⟩, ⟨3, "JMP :a".toList⟩,
    ⟨4, "?? 40000".toList⟩, ⟨6, "SET r0 .b".toList⟩]
  instructions := [⟨1, "OUT 65".toList⟩, ⟨3, "JMP :a".toList⟩, ⟨4, "?? 40000".toList⟩,
    ⟨6, "SET r0 .b".toList⟩]
  layout := ⟨⟨[⟨['a'], .label, 2, 2⟩]⟩, 8⟩
  final := ⟨⟨[⟨['a'], .label, 2, 2⟩, ⟨['b'], .data 99 2, 8, 5⟩]⟩, 10⟩
  resolved := [⟨1, "OUT 65".toList⟩, ⟨3, "JMP 2".toList⟩, ⟨4, "?? 40000".toList⟩,
    ⟨6, "SET r0 8".toList⟩]
  encoded := [[19, 65], [6, 2], [40000], [1, 32768, 8]]
  extracted := rfl
  expands := rfl
  placed := rfl
  dataPlaced := rfl
  resolves := rfl
  encodes := .cons rfl (.cons rfl (.cons rfl (.cons rfl .nil)))

/-- Its only raw word and its only value are no opcodes, so it is listed and assembled
    again, whatever the options. -/
theorem assemble_listing_of_rawAndData :
    assemble rawAndData = .ok rawAndDataPasses.program ∧ rawAndDataPasses.LargeData ∧
      ∃ m, Machine.ofBytes rawAndDataPasses.program.bytes = .ok m ∧
        m.boundaries = [0, 2, 4, 5, 8, 9] ∧ m.walkEnd 0 = 10 ∧
        ∀ options, ∃ q, assemble (Text.unlines (disassemble m options)) = .ok q ∧
          q.words = [19, 65, 6, 2, 40000, 1, 32768, 8, 99, 99] := by
  have hlarge : rawAndDataPasses.LargeData := by
    refine ⟨?_, by decide⟩
    -- Only the third line is a raw word.
    exact .cons nofun (.cons nofun (.cons (fun _ => by simp) (.cons nofun .nil)))
  have hassemble : assemble rawAndData = .ok rawAndDataPasses.program :=
    (assemble_eq_ok_iff _ _).mpr ⟨rawAndDataPasses, rfl⟩
  exact ⟨hassemble, hlarge, (assemble_listing_of_assembled hassemble).2 rawAndDataPasses hlarge⟩

end WordMachine
