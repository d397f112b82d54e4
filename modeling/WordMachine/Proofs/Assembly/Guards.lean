import WordMachine.Proofs.Assembly.Language

/-!
# Guarded Steps

An assembly never fails from within.

Some steps of the passes are safe only because of what was found out before. A text in
memory is bytes, and cutting it in bytes is possible only between two characters: after the
dot of a declaration, and after the name of a shorthand. Taking a word of a line by its
place is possible only if the line has so many. Data can be placed only if its name is free,
a line can be encoded only if its first word is known, and the size of the data is a
difference that must not be negative.

None of this is left to chance. A line is trimmed, so it begins with its first word, and its
first character is the one that says what kind of line it is. Words are counted before they
are taken. Names of data were compared when the declarations were read, and labels do not
take them. A line whose first word is not known was refused when it should have been placed,
and replacing references leaves first words alone.

For the steps within a line, each function has a twin that makes them one by one and gives
nothing at all where one is impossible. The twins give what the functions give.

## Main definitions

* `Text.dropBytes?`: Cutting a text after a number of bytes.
* `Declaration.parse?`, `Shorthand.expandLine?`, `Encoding.encodeLine?`: The twins.
* `LaidOut`: What the passes hand on before data is placed.
* `Guarded`: Sources that are assembled without an impossible step.

## Theorems

* `Text.dropBytes?_eq_some_iff`: When a text can be cut.
* `Declaration.parse?_eq`, `Shorthand.expandLine?_eq`, `Encoding.encodeLine?_eq`: The steps
  within a line are possible.
* `LaidOut.kind_of_placeData`: Data is refused only for want of room.
* `LaidOut.kind_of_encodeLine`: A line is refused only for its operands.
* `steps_guarded`: Every source is guarded.
-/

namespace WordMachine

/-! ### Cutting in bytes -/

theorem Name.byteLength_cons (c : Char) (t : Text) :
    byteLength (c :: t) = c.utf8Size + byteLength t := rfl

/-- Every character has a byte. -/
theorem Name.byteLength_eq_zero_iff (t : Text) : byteLength t = 0 ↔ t = [] := by
  cases t with
  | nil => simp [byteLength]
  | cons c t =>
      have hpos := c.utf8Size_pos
      rw [byteLength_cons]
      simp only [reduceCtorEq, iff_false]
      omega

namespace Text

/-- What is left of a text after some bytes in UTF-8, if there are so many and they end
    where a character ends. -/
def dropBytes? : Nat → Text → Option Text
  | 0, t => some t
  | _ + 1, [] => none
  | n + 1, c :: t => if c.utf8Size ≤ n + 1 then dropBytes? (n + 1 - c.utf8Size) t else none

/-- A text can be cut exactly where whole characters fill the bytes. -/
theorem dropBytes?_eq_some_iff (n : Nat) (t rest : Text) :
    dropBytes? n t = some rest ↔ ∃ front, t = front ++ rest ∧ Name.byteLength front = n := by
  induction t generalizing n with
  | nil =>
      cases n with
      | zero => simp [dropBytes?, Name.byteLength, eq_comm]
      | succ n => simp [dropBytes?, Name.byteLength]
  | cons c t ih =>
      cases n with
      | zero => simp [dropBytes?, Name.byteLength_eq_zero_iff]
      | succ n =>
          -- What is cut off begins with the first character, which has to fit.
          have hfront : (∃ front, c :: t = front ++ rest ∧ Name.byteLength front = n + 1) ↔
              c.utf8Size ≤ n + 1 ∧
                ∃ front, t = front ++ rest ∧ Name.byteLength front = n + 1 - c.utf8Size := by
            constructor
            · rintro ⟨front, hfront, hlength⟩
              cases front with
              | nil => cases hlength
              | cons first front =>
                  cases hfront
                  rw [Name.byteLength_cons] at hlength
                  exact ⟨by omega, front, rfl, by omega⟩
            · rintro ⟨hfits, front, rfl, hlength⟩
              refine ⟨c :: front, rfl, ?_⟩
              rw [Name.byteLength_cons]
              omega
          rw [hfront, ← ih, dropBytes?]
          by_cases hfits : c.utf8Size ≤ n + 1
          · simp [hfits]
          · simp [hfits]

/-- There is no cut inside a character. -/
example : dropBytes? 1 ['é', '.'] = none := by decide

end Text

/-- A trimmed line begins with its first word. -/
theorem Line.exists_text_eq_head_append {line : Line} (h : Text.IsSolid line.text) :
    ∃ rest, line.text = line.head ++ rest := by
  rcases h.1 with ⟨first, hfirst, hblank⟩
  refine ⟨line.text.dropWhile (!Text.isBlank ·), ?_⟩
  rw [head, tokens, Text.words_eq_cons hfirst hblank, List.headD_cons,
    List.takeWhile_append_dropWhile]

/-! ### The steps within a line -/

namespace Declaration

/-- Reading a declaration word by word. -/
def parse? (line : Line) : Option (Except AssemblyError Declaration) :=
  if line.tokens.length = 2 ∨ line.tokens.length = 3 then do
    let first ← line.tokens[0]?
    let name ← Text.dropBytes? 1 first
    let value ← line.tokens[1]?
    return ofTokens line name value line.tokens[2]?
  else some (.error (line.error (.dataTokens line.text line.tokens.length)))

theorem parse?_eq {line : Line} (hsolid : Text.IsSolid line.text)
    (hdot : isDeclaration line = true) : parse? line = some (parse line) := by
  -- The first word begins with the dot that the line begins with, and that is one byte.
  have hhead : Text.startsWith '.' line.head = true := by
    rw [Line.startsWith_head hsolid]
    exact hdot
  rcases (Text.startsWith_iff _ _).mp hhead with ⟨name, hname⟩
  have hcut : Text.dropBytes? 1 ('.' :: name) = some name :=
    (Text.dropBytes?_eq_some_iff _ _ _).mpr ⟨['.'], rfl, rfl⟩
  have htokens : line.tokens = ('.' :: name) :: line.operands := by
    rw [← hname]
    exact Line.tokens_eq_cons (by rw [hname]; exact List.cons_ne_nil _ _)
  unfold parse? parse
  rw [htokens]
  rcases line.operands with _ | ⟨value, _ | ⟨count, _ | ⟨more, rest⟩⟩⟩
  · rfl
  · simp [hcut]
  · simp [hcut]
  · simp

end Declaration

namespace Shorthand

/-- Looking for the quoted text after the bytes of the name. -/
def quoted? (line : Line) (name : Text) : Option (Except AssemblyError Text) :=
  if line.text.count quote = 2 then do
    let argument ← Text.dropBytes? (Name.byteLength name) line.text
    return match unquote? (Text.trim argument) with
      | some text => .ok text
      | none => .error (line.error (.shorthandQuotes line.text))
  else some (.error (line.error (.shorthandQuotes line.text)))

/-- The instructions that print a text, if all its characters can be printed. -/
def outLines (line : Line) (text : Text) : Except AssemblyError (List Text) :=
  match text.find? (!isPrintable ·) with
  | some c => .error (line.error (.shorthandCharacter c line.text))
  | none => .ok (text.map outLine)

/-- Expanding a shorthand word by word. -/
def expandLine? (line : Line) : Option (Except AssemblyError (List Text)) :=
  if line.head = printName then do
    let quoted ← quoted? line printName
    return quoted >>= outLines line
  else if line.head = printlnName then do
    let quoted ← quoted? line printlnName
    return (quoted >>= outLines line).map (· ++ [outLine '\n'])
  else if line.head = negateName then
    if line.tokens.length = 3 then do
      let destination ← line.tokens[1]?
      let source ← line.tokens[2]?
      return .ok (negateLines destination source)
    else some (.error (line.error (.shorthandTokens line.text line.tokens.length)))
  else some (.error (line.error (.shorthandUnknown line.head line.text)))

theorem quoted?_eq {line : Line} {name : Text} (hsolid : Text.IsSolid line.text)
    (hhead : line.head = name) : quoted? line name = some (quoted line name) := by
  rcases Line.exists_text_eq_head_append hsolid with ⟨rest, hrest⟩
  rw [hhead] at hrest
  have hcut : Text.dropBytes? (Name.byteLength name) line.text = some rest :=
    (Text.dropBytes?_eq_some_iff _ _ _).mpr ⟨name, hrest, rfl⟩
  have hdrop : line.text.drop name.length = rest := by
    rw [hrest, List.drop_left]
  unfold quoted? quoted
  rw [hcut, hdrop]
  by_cases htwo : line.text.count quote = 2
  · rw [if_pos htwo, if_pos htwo]
    rfl
  · rw [if_neg htwo, if_neg htwo]

theorem expandLine?_eq {line : Line} (hsolid : Text.IsSolid line.text) :
    expandLine? line = some (expandLine line) := by
  unfold expandLine? expandLine
  by_cases hprint : line.head = printName
  · rw [if_pos hprint, if_pos hprint, quoted?_eq hsolid hprint]
    rfl
  · rw [if_neg hprint, if_neg hprint]
    by_cases hprintln : line.head = printlnName
    · rw [if_pos hprintln, if_pos hprintln, quoted?_eq hsolid hprintln]
      rfl
    · rw [if_neg hprintln, if_neg hprintln]
      by_cases hnegate : line.head = negateName
      · rw [if_pos hnegate, if_pos hnegate]
        rcases line.tokens with _ | ⟨first, _ | ⟨destination, _ | ⟨source, _ | ⟨more, rest⟩⟩⟩⟩
        · rfl
        · rfl
        · rfl
        · rfl
        · simp
      · rw [if_neg hnegate, if_neg hnegate]

end Shorthand

namespace Encoding

/-- Encoding a line, a word given as a number being taken by its place. -/
def encodeLine? (line : Line) : Option (Except AssemblyError (List Word)) :=
  if line.head = Opcode.rawName then
    if line.operands.length = 1 then do
      let token ← line.operands[0]?
      return (encodeRaw line token).map ([·])
    else some (.error (line.error (.operandCount line.text 1 line.operands.length)))
  else
    match Opcode.ofMnemonic? line.head with
    | some op => some do
      return op.word :: (← (← operandTokens line op.arity).mapM (encodeOperand line))
    | none => some (.error (line.error (.unknownInstruction line.head line.text)))

theorem encodeLine?_eq (line : Line) : encodeLine? line = some (encodeLine line) := by
  unfold encodeLine? encodeLine
  by_cases hraw : line.head = Opcode.rawName
  · rw [if_pos hraw, if_pos hraw, operandTokens]
    rcases line.operands with _ | ⟨token, _ | ⟨more, rest⟩⟩
    · rfl
    · rw [List.length_singleton, if_pos rfl, if_pos rfl]
      show some ((encodeRaw line token).map ([·])) = some ([token].mapM (encodeRaw line))
      rw [List.mapM_cons, List.mapM_nil]
      cases encodeRaw line token with
      | ok w => rfl
      | error e => rfl
    · have hmany : (token :: more :: rest).length ≠ 1 := by simp
      rw [if_neg hmany, if_neg hmany]
      rfl
  · rw [if_neg hraw, if_neg hraw]
    cases Opcode.ofMnemonic? line.head with
    | some op => rfl
    | none => rfl

end Encoding

/-! ### What can still be refused -/

namespace Layout

/-- A block whose name is free is refused only for want of room. -/
theorem kind_of_placeBlock {layout : Layout} {d : Declaration} {e : AssemblyError}
    (hfree : layout.symbols.find? .data d.name = none) (h : layout.placeBlock d = .error e) :
    e.kind = .programTooLarge := by
  unfold placeBlock at h
  split at h
  · cases h
    rfl
  · split at h
    · rename_i existing hadd
      rw [(SymbolTable.add_eq_ok_iff _ _ _).mpr ⟨hfree, rfl⟩] at hadd
      cases hadd
    · cases h

/-- Blocks whose names are free and different are refused only for want of room. -/
theorem kind_of_foldlM_placeBlock {layout : Layout} {ds : List Declaration} {e : AssemblyError}
    (hnames : (ds.map (·.name)).Nodup)
    (hfree : ∀ d ∈ ds, layout.symbols.find? .data d.name = none)
    (h : ds.foldlM placeBlock layout = .error e) : e.kind = .programTooLarge := by
  induction ds generalizing layout with
  | nil => cases h
  | cons d rest ih =>
      rw [List.map_cons, List.nodup_cons] at hnames
      rw [List.forall_mem_cons] at hfree
      rw [List.foldlM_cons] at h
      rcases (bind_eq_error_iff _ _ _).mp h with h | ⟨next, hnext, h⟩
      · exact kind_of_placeBlock hfree.1 h
      · -- Placing the block takes its name, which the others do not have.
        rcases (placeBlock_eq_ok_iff _ _ _).mp hnext with ⟨_, _, rfl⟩
        refine ih hnames.2 (fun d' hd' => ?_) h
        refine (SymbolTable.find?_concat_eq_none_iff _ (dataSymbol layout.size d) _).mpr
          ⟨hfree.2 d' hd', fun hname => hnames.1 ?_⟩
        exact List.mem_map.mpr ⟨d', hd', hname.symm⟩

end Layout

/-- A line whose first word is known is refused only for its operands. -/
theorem Encoding.kind_of_encodeLine {line : Line} {e : AssemblyError} (hlabel : line.isLabel = false)
    (hknown : line.statement ≠ .unknown) (h : encodeLine line = .error e) :
    e.kind = .arityMismatch ∨ e.kind = .invalidOperand := by
  have hcount : ∀ expected e, operandTokens line expected = .error e → e.kind = .arityMismatch := by
    intro expected e h
    unfold operandTokens at h
    split at h
    · cases h
    · cases h
      rfl
  have hraw : ∀ token e, encodeRaw line token = .error e → e.kind = .invalidOperand := by
    intro token e h
    rcases (mapError_eq_error_iff _ _ _).mp h with ⟨reason, _, rfl⟩
    rfl
  have hoperand : ∀ token e, encodeOperand line token = .error e → e.kind = .invalidOperand := by
    intro token e h
    rcases (mapError_eq_error_iff _ _ _).mp h with ⟨reason, _, rfl⟩
    rfl
  -- The one other refusal is of an unknown mnemonic, which the hypothesis excludes.
  rw [Line.statement_of_not_isLabel hlabel] at hknown
  unfold encodeLine at h
  by_cases hhead : line.head = Opcode.rawName
  · rw [if_pos hhead] at h
    rcases (bind_eq_error_iff _ _ _).mp h with h | ⟨tokens, _, h⟩
    · exact Or.inl (hcount _ _ h)
    · rcases exists_of_mapM_eq_error h with ⟨token, _, htoken⟩
      exact Or.inr (hraw _ _ htoken)
  · rw [if_neg hhead] at h hknown
    cases hop : Opcode.ofMnemonic? line.head with
    | none =>
        rw [hop] at hknown
        exact absurd rfl hknown
    | some op =>
        rw [hop] at h
        rcases (bind_eq_error_iff _ _ _).mp h with h | ⟨tokens, _, h⟩
        · exact Or.inl (hcount _ _ h)
        · rcases (bind_eq_error_iff _ _ _).mp h with h | ⟨_, _, h⟩
          · rcases exists_of_mapM_eq_error h with ⟨token, _, htoken⟩
            exact Or.inr (hoperand _ _ htoken)
          · cases h

/-- A line without references has the first word of the line it comes from. -/
theorem Reference.exists_of_mem_resolve {symbols : SymbolTable} {lines resolved : List Line}
    (h : resolve symbols lines = .ok resolved) {line : Line} (hline : line ∈ resolved) :
    ∃ original ∈ lines, line.head = original.head := by
  have hpairs := (resolve_eq_ok_iff _ _ _).mp h
  clear h
  induction hpairs with
  | nil => cases hline
  | cons hfirst _ ih =>
      rcases List.mem_cons.mp hline with rfl | hrest
      · exact ⟨_, List.mem_cons_self, (parts_of_resolveLine hfirst).1⟩
      · rcases ih hrest with ⟨original, hmem, hhead⟩
        exact ⟨original, List.mem_cons_of_mem _ hmem, hhead⟩

/-! ### The whole assembly -/

/-- What the passes hand on before data is placed. -/
structure LaidOut (source : Text) where
  /-- The lines that are no declarations. -/
  code : List Line
  declarations : List Declaration
  /-- The lines after the shorthands are expanded. -/
  expanded : List Line
  /-- The lines that are no labels. -/
  instructions : List Line
  /-- Where the instructions and labels are. -/
  layout : Layout
  extracted : Declaration.extract (Line.ofSource source) = .ok (code, declarations)
  expands : Shorthand.expand code = .ok expanded
  placed : Layout.ofLines expanded = .ok (instructions, layout)

namespace LaidOut

variable {source : Text}

/-- Data is refused only for want of room, and never for its name. -/
theorem kind_of_placeData (t : LaidOut source) {e : AssemblyError}
    (h : t.layout.placeData t.declarations = .error e) : e.kind = .programTooLarge := by
  have hnames := ((Declaration.extract_ofSource_iff _ _ _).mp t.extracted).2.2
  have hlines := ((Layout.ofLines_eq_ok_iff _ _ _).mp t.placed).2
  rcases (bind_eq_error_iff _ _ _).mp h with h | ⟨final, _, h⟩
  · exact Layout.kind_of_foldlM_placeBlock hnames
      (fun d _ => Layout.find?_data_of_foldlM_place hlines d.name) h
  · split at h
    · cases h
    · cases h
      rfl

/-- A line that has been placed and has no references is refused only for its operands. -/
theorem kind_of_encodeLine (t : LaidOut source) {symbols : SymbolTable} {resolved : List Line}
    (hresolve : Reference.resolve symbols t.instructions = .ok resolved) {line : Line}
    (hline : line ∈ resolved) {e : AssemblyError} (h : Encoding.encodeLine line = .error e) :
    e.kind = .arityMismatch ∨ e.kind = .invalidOperand := by
  rcases (Layout.ofLines_eq_ok_iff _ _ _).mp t.placed with ⟨hinstructions, hlines⟩
  have hgood := ((Layout.exists_foldlM_place_iff _ _).mp ⟨_, hlines⟩).1
  rcases Reference.exists_of_mem_resolve hresolve hline with ⟨original, hmem, hhead⟩
  rw [hinstructions] at hmem
  rcases List.mem_filter.mp hmem with ⟨hexpanded, hlabel⟩
  refine Encoding.kind_of_encodeLine ?_ ?_ h
  · rw [Line.isLabel, hhead]
    simpa [Line.isLabel] using hlabel
  · rw [Line.statement_congr hhead]
    exact (hgood original hexpanded).1

end LaidOut

/-- Sources that are assembled without an impossible step. -/
structure Guarded (source : Text) : Prop where
  /-- The words of a declaration are there, and its dot can be cut off. -/
  declared : ∀ line ∈ Line.ofSource source, Declaration.isDeclaration line = true →
    Declaration.parse? line = some (Declaration.parse line)
  /-- The words of a shorthand are there, and its name can be cut off. -/
  expanded : ∀ line ∈ Line.ofSource source, Shorthand.isShorthand line = true →
    Shorthand.expandLine? line = some (Shorthand.expandLine line)
  /-- No block of data finds its name taken. -/
  named : ∀ (t : LaidOut source) (e : AssemblyError),
    t.layout.placeData t.declarations = .error e → e.kind = .programTooLarge
  /-- The words of a line to be encoded are there, and the first of them is known. -/
  encoded : ∀ (t : LaidOut source) (final : Layout) (resolved : List Line),
    t.layout.placeData t.declarations = .ok final →
    Reference.resolve final.symbols t.instructions = .ok resolved →
    ∀ line ∈ resolved, Encoding.encodeLine? line = some (Encoding.encodeLine line) ∧
      ∀ e, Encoding.encodeLine line = .error e → e.kind ≠ .unknownInstruction
  /-- There are at least as many words as there are of the instructions. -/
  measured : ∀ p, assemble source = .ok p → p.codeSize ≤ p.words.length

/-- No source is assembled with an impossible step. -/
theorem steps_guarded (source : Text) : Guarded source where
  declared line hline hdot := Declaration.parse?_eq (Line.isSolid_of_mem_ofSource hline) hdot
  expanded line hline _ := Shorthand.expandLine?_eq (Line.isSolid_of_mem_ofSource hline)
  named t e h := t.kind_of_placeData h
  encoded t final resolved _ hresolve line hline := by
    refine ⟨Encoding.encodeLine?_eq line, fun e he hunknown => ?_⟩
    have hkind := t.kind_of_encodeLine hresolve hline he
    rw [hunknown] at hkind
    rcases hkind with hkind | hkind <;> cases hkind
  measured p h := by
    rcases (assemble_eq_ok_iff _ _).mp h with ⟨t, rfl⟩
    rw [t.length_words]
    exact Nat.le_add_right _ _

end WordMachine
