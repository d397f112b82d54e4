import WordMachine.Assembly.Program
import WordMachine.Proofs.Success

/-!
# The Passes of an Assembly

What a successful assembly consists of.

Assembly is a chain of passes, each of which can fail, and a program comes out only
if none does. `Passes source` is a record of what the passes handed on when none
failed, with the proof that they did: there is one exactly for the sources that
assemble, and its program is the one assembled. Whatever is said of an assembled
program is said of the record, where the lines, the layout and the words of each
line can be named.

Most passes treat each line by itself and gather the results. Their success is a
relation between the lines that went in and what came out, place by place, which is
`List.Forall₂`. The pass that places lines is different, since each line is placed
after those before it: there, success is a fold that never fails.

## Main definitions

* `Passes`: The results of the passes of an assembly that succeeded.
* `Passes.program`: The program that they make.

## Theorems

* `gather_map_eq_ok_iff`: When every item succeeds.
* `Layout.ofLines_eq_ok_iff`: Placing lines is a fold that never fails.
* `Reference.resolve_eq_ok_iff`, `Encoding.encode_eq_ok_iff`,
  `Shorthand.expand_eq_ok_iff`: The other passes line by line.
* `assemble_eq_ok_iff`: A source assembles exactly when its passes succeed.
-/

namespace WordMachine

section Gathering

variable {ε α β : Type}

/-- Gathering the results of a pass over some items succeeds exactly when every item
    does. -/
theorem gather_map_eq_ok_iff (f : α → Except ε β) (xs : List α) (ys : List β) :
    gather (xs.map f) = .ok ys ↔ List.Forall₂ (fun x y => f x = .ok y) xs ys := by
  rw [gather_eq_ok_iff, map_eq_map_iff_forall₂]

end Gathering

namespace Declaration

theorem extract_eq_ok_iff (lines code : List Line) (declarations : List Declaration) :
    extract lines = .ok (code, declarations) ↔
      code = lines.filter (!isDeclaration ·) ∧
        parseAll [] (lines.filter isDeclaration) = declarations.map .ok := by
  rw [extract, bind_eq_ok_iff]
  constructor
  · rintro ⟨ds, hds, h⟩
    cases h
    exact ⟨rfl, (gather_eq_ok_iff _ _).mp hds⟩
  · rintro ⟨rfl, hds⟩
    exact ⟨declarations, (gather_eq_ok_iff _ _).mpr hds, rfl⟩

end Declaration

namespace Shorthand

theorem expand_eq_ok_iff (lines expanded : List Line) :
    expand lines = .ok expanded ↔
      ∃ parts, List.Forall₂ (fun line part => expandIfShorthand line = .ok part) lines parts ∧
        parts.flatten = expanded := by
  rw [expand, map_eq_ok_iff]
  simp only [gather_map_eq_ok_iff]

end Shorthand

namespace Layout

/-- Lines are placed without an error exactly when each is placed after the ones
    before it. -/
theorem placeAll_eq_iff (layout final : Layout) (lines : List Line) :
    layout.placeAll lines = ([], final) ↔ lines.foldlM place layout = .ok final := by
  induction lines generalizing layout with
  | nil =>
      simp only [placeAll, List.foldlM_nil, Prod.mk.injEq, true_and]
      constructor
      · rintro rfl
        rfl
      · intro h
        cases h
        rfl
  | cons line rest ih =>
      rw [List.foldlM_cons, bind_eq_ok_iff, placeAll]
      -- An error is never taken back by the lines after it.
      cases hplace : layout.place line with
      | error e => simp
      | ok next => simpa using ih next

theorem ofLines_eq_ok_iff (lines instructions : List Line) (layout : Layout) :
    ofLines lines = .ok (instructions, layout) ↔
      instructions = lines.filter (!·.isLabel) ∧ lines.foldlM place empty = .ok layout := by
  rw [← placeAll_eq_iff, ofLines]
  cases h : empty.placeAll lines with
  | mk errors final =>
      cases errors with
      | nil =>
          simp only [Except.ok.injEq, Prod.mk.injEq, true_and]
          exact and_congr_left fun _ => eq_comm
      | cons e rest => simp

theorem placeData_eq_ok_iff (layout final : Layout) (declarations : List Declaration) :
    layout.placeData declarations = .ok final ↔
      declarations.foldlM placeBlock layout = .ok final ∧ final.size ≤ memorySize := by
  rw [placeData, bind_eq_ok_iff]
  constructor
  · rintro ⟨last, hlast, h⟩
    split at h
    · rename_i hsize
      cases h
      exact ⟨hlast, hsize⟩
    · cases h
  · rintro ⟨hfold, hsize⟩
    exact ⟨final, hfold, by rw [if_pos hsize]; rfl⟩

end Layout

namespace Reference

theorem resolve_eq_ok_iff (symbols : SymbolTable) (lines resolved : List Line) :
    resolve symbols lines = .ok resolved ↔
      List.Forall₂ (fun line line' => resolveLine symbols line = .ok line') lines resolved := by
  rw [resolve, mapError_eq_ok_iff, gather_map_eq_ok_iff]

theorem resolveLine_eq_ok_iff (symbols : SymbolTable) (line resolved : Line) :
    resolveLine symbols line = .ok resolved ↔
      ∃ operands, List.Forall₂ (fun token text => resolveToken symbols line token = .ok text)
          line.operands operands ∧
        resolved = ⟨line.number, Text.unwords (line.tokens.take 1 ++ operands)⟩ := by
  rw [resolveLine, bind_eq_ok_iff]
  simp only [gather_map_eq_ok_iff]
  constructor
  · rintro ⟨operands, hoperands, h⟩
    cases h
    exact ⟨operands, hoperands, rfl⟩
  · rintro ⟨operands, hoperands, rfl⟩
    exact ⟨operands, hoperands, rfl⟩

end Reference

namespace Encoding

theorem encode_eq_ok_iff (lines : List Line) (words : List Word) :
    encode lines = .ok words ↔
      ∃ encoded, List.Forall₂ (fun line part => encodeLine line = .ok part) lines encoded ∧
        encoded.flatten = words := by
  rw [encode, map_eq_ok_iff]
  simp only [gather_map_eq_ok_iff]

end Encoding

/-- What the passes of an assembly that succeeded handed on. -/
structure Passes (source : Text) where
  /-- The lines that are no declarations. -/
  code : List Line
  declarations : List Declaration
  /-- The lines after the shorthands are expanded. -/
  expanded : List Line
  /-- The lines that are no labels. -/
  instructions : List Line
  /-- Where the instructions and labels are. -/
  layout : Layout
  /-- Where everything is, the data included. -/
  final : Layout
  /-- The instruction lines without references. -/
  resolved : List Line
  /-- The words of each instruction line. -/
  encoded : List (List Word)
  extracted : Declaration.extract (Line.ofSource source) = .ok (code, declarations)
  expands : Shorthand.expand code = .ok expanded
  placed : Layout.ofLines expanded = .ok (instructions, layout)
  dataPlaced : layout.placeData declarations = .ok final
  resolves : Reference.resolve final.symbols instructions = .ok resolved
  encodes : List.Forall₂ (fun line words => Encoding.encodeLine line = .ok words) resolved encoded

namespace Passes

/-- The program that the passes make. -/
def program {source : Text} (t : Passes source) : Program where
  words := t.encoded.flatten ++ t.declarations.flatMap Declaration.words
  codeSize := t.layout.size
  symbols := t.final.symbols.symbols

end Passes

/-- A source assembles exactly when its passes succeed, and to the program that they
    make. -/
theorem assemble_eq_ok_iff (source : Text) (p : Program) :
    assemble source = .ok p ↔ ∃ t : Passes source, t.program = p := by
  constructor
  · intro h
    -- One pass after the other, in the order they are made.
    rcases (bind_eq_ok_iff _ _ _).mp h with ⟨⟨code, declarations⟩, hextract, h⟩
    rcases (bind_eq_ok_iff _ _ _).mp h with ⟨expanded, hexpand, h⟩
    rcases (bind_eq_ok_iff _ _ _).mp h with ⟨⟨instructions, layout⟩, hplace, h⟩
    rcases (bind_eq_ok_iff _ _ _).mp h with ⟨final, hdata, h⟩
    rcases (bind_eq_ok_iff _ _ _).mp h with ⟨resolved, hresolve, h⟩
    rcases (bind_eq_ok_iff _ _ _).mp h with ⟨words, hencode, h⟩
    rcases (Encoding.encode_eq_ok_iff _ _).mp hencode with ⟨encoded, hencoded, rfl⟩
    cases h
    exact ⟨{ code, declarations, expanded, instructions, layout, final, resolved, encoded
             extracted := hextract
             expands := hexpand
             placed := hplace
             dataPlaced := (mapError_eq_ok_iff _ _ _).mp hdata
             resolves := hresolve
             encodes := hencoded }, rfl⟩
  · rintro ⟨t, rfl⟩
    refine (bind_eq_ok_iff _ _ _).mpr ⟨_, t.extracted, ?_⟩
    refine (bind_eq_ok_iff _ _ _).mpr ⟨_, t.expands, ?_⟩
    refine (bind_eq_ok_iff _ _ _).mpr ⟨_, t.placed, ?_⟩
    refine (bind_eq_ok_iff _ _ _).mpr ⟨_, (mapError_eq_ok_iff _ _ _).mpr t.dataPlaced, ?_⟩
    refine (bind_eq_ok_iff _ _ _).mpr ⟨_, t.resolves, ?_⟩
    exact (bind_eq_ok_iff _ _ _).mpr
      ⟨_, (Encoding.encode_eq_ok_iff _ _).mpr ⟨_, t.encodes, rfl⟩, rfl⟩

end WordMachine
