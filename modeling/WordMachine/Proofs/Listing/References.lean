import WordMachine.Proofs.Listing.Addresses

/-!
# Labels and References

Every reference of a listing has its label, and every label its reference.

Four places of a listing decide for themselves what a target is: the survey that collects
targets, the filter that reports the ones without a boundary, the labels before an entry and
the text of an operand. What ties them together is one condition on a target: an operand of
the walk names it, and targets of its kind are labelled. `Listing.Named` is that condition,
and each of the four is given in terms of it. A label is then defined for exactly the named
targets that are boundaries, an operand refers to exactly those, and exactly the other named
targets are reported.

A run of output hides its operands, but no operand of an output instruction names anything,
so what a run folds is never missed.

Definitions and references are read off the lines themselves. The text of a print shorthand
can look like a reference and is none.

## Main definitions

* `Listing.operandsOf`, `Listing.references`, `Listing.definitions`: The operands of a line,
  and the references and definitions among some lines.
* `Instruction.Names`: The targets that the operands of an instruction name.
* `Listing.Named`: The targets that a listing is to label or to report.
* `Listing.reports`: The reports of some addresses.
* `Listing.Closed`: A listing whose labels are closed and complete.

## Theorems

* `Listing.mem_named_iff`: What the survey collects.
* `Listing.mem_definitions_iff`, `Listing.mem_references_iff`: What is defined, and what is
  referred to.
* `Listing.exists_line_of_names`: How an operand that names a target is shown.
* `Listing.unalignedComment_mem_iff`: What is reported.
* `Listing.disassemble_closed`: The labels of every listing are closed and complete.
-/

namespace WordMachine

/-- An operand of an instruction, counted from zero, names a target: it is a literal in the
    place of an address. -/
def Instruction.Names (i : Instruction) (n : Nat) (t : Target) : Prop :=
  ∃ op role word value, i.opcode = some op ∧ op.roles[n]? = some role ∧
    i.operands[n]? = some word ∧ Target.Kind.ofRole? op role = some t.kind ∧
    Operand.ofWord? word = some (.literal value) ∧ value.toNat = t.address

/-- The target of an operand is what it names, if targets of that kind are labelled. -/
theorem Target.ofOperand?_eq_some_iff {options : Listing.Options} {op : Opcode} {role : Role}
    {word : Word} {t : Target} :
    ofOperand? options op role word = some t ↔
      options.labels t.kind = true ∧ Kind.ofRole? op role = some t.kind ∧
        ∃ value, Operand.ofWord? word = some (.literal value) ∧ value.toNat = t.address := by
  rcases t with ⟨kind, address⟩
  unfold ofOperand?
  split
  · rename_i kind' value hkind hvalue
    rw [hkind, hvalue]
    constructor
    · intro h
      split at h
      · rename_i hon
        cases h
        exact ⟨hon, rfl, value, rfl, rfl⟩
      · cases h
    · rintro ⟨hon, hsame, value', hvalue', haddress⟩
      cases hsame
      cases hvalue'
      rw [if_pos hon, haddress]
  · rename_i hno
    constructor
    · intro h
      cases h
    · rintro ⟨_, hkind, value, hvalue, _⟩
      exact absurd hvalue (hno kind value hkind)

/-- The targets of an instruction are what its operands name, as far as their kinds are
    labelled. -/
theorem Instruction.mem_targets_iff {options : Listing.Options} {i : Instruction} {t : Target} :
    t ∈ i.targets options ↔ options.labels t.kind = true ∧ ∃ n, i.Names n t := by
  unfold targets Names
  cases i.opcode with
  | none => simp
  | some op =>
      simp only [List.mem_filterMap, Target.ofOperand?_eq_some_iff]
      constructor
      · rintro ⟨⟨role, word⟩, hmem, hon, hkind, value, hvalue, haddress⟩
        rcases List.mem_iff_getElem?.mp hmem with ⟨n, hn⟩
        rcases List.getElem?_zip_eq_some.mp hn with ⟨hrole, hword⟩
        exact ⟨hon, n, op, role, word, value, rfl, hrole, hword, hkind, hvalue, haddress⟩
      · rintro ⟨hon, n, op, role, word, value, ⟨⟩, hrole, hword, hkind, hvalue, haddress⟩
        have hn := List.getElem?_zip_eq_some (z := (role, word)).mpr ⟨hrole, hword⟩
        exact ⟨(role, word), List.mem_of_getElem? hn, hon, hkind, value, hvalue, haddress⟩

/-- An output instruction names nothing. -/
theorem Instruction.Names.not_foldable {i : Instruction} {n : Nat} {t : Target}
    (h : i.Names n t) : Listing.foldable? i = none := by
  cases hfold : Listing.foldable? i with
  | none => rfl
  | some c =>
      rcases h with ⟨op, role, word, value, hop, hrole, _, hkind, _⟩
      rcases Listing.foldable?_some hfold with ⟨_, hout, _⟩
      cases hop.symm.trans hout
      -- The one role of its operand is that of a value.
      have hvalue : role = .value := by
        rcases n with _ | n
        · exact (Option.some.inj hrole).symm
        · cases hrole
      rw [hvalue] at hkind
      cases hkind

namespace Listing

/-! ### Reading a listing -/

/-- The operands of a line: the words after the first, if it is an instruction or a raw
    word. -/
def operandsOf (line : Text) : List Text :=
  if isStatement line && !Text.startsWith '!' line then (Text.words line).tail else []

/-- The operands that refer to labels. -/
def references (lines : List Text) : List Text :=
  (lines.flatMap operandsOf).filter (Text.startsWith ':')

/-- The lines that define labels. -/
def definitions (lines : List Text) : List Text := lines.filter (Text.startsWith ':')

/-- The operands of an instruction are read back from its line. -/
theorem operandsOf_textWith (s : Survey) (options : Options) (i : Instruction) :
    operandsOf (i.textWith (s.operandText options)) =
      (i.tokensWith (s.operandText options)).tail := by
  have hwords : Text.words (i.textWith (s.operandText options)) =
      i.tokensWith (s.operandText options) :=
    i.tokens_textWith (s.isToken_operandText options) 0
  rw [operandsOf, isStatement_textWith, i.startsWith_textWith _ (by decide), hwords]
  rfl

/-- Only what shows an instruction has operands. -/
theorem operandsOf_printText (text : Text) (newline : Bool) :
    operandsOf (printText text newline) = [] := by
  have hmark : Text.startsWith '!' (printText text newline) = true := by
    cases newline <;> rfl
  rw [operandsOf, hmark, Bool.not_true, Bool.and_false]
  rfl

/-! ### The targets of a listing -/

/-- The targets that a listing is to label or to report: an operand of the walk names them,
    and their kind is labelled. -/
def Named (m : Machine) (options : Options) (t : Target) : Prop :=
  options.labels t.kind = true ∧
    ∃ address ∈ m.boundaries, ∃ n, (m.decode (UInt16.ofNat address)).Names n t

section Targets

variable {m : Machine} {options : Options}

/-- The survey collects these targets. -/
theorem mem_named_iff {t : Target} : t ∈ Survey.named m options ↔ Named m options t := by
  simp only [Survey.named, Named, List.mem_flatMap, Instruction.mem_targets_iff]
  constructor
  · rintro ⟨address, haddress, hon, hnames⟩
    exact ⟨hon, address, haddress, hnames⟩
  · rintro ⟨hon, address, haddress, hnames⟩
    exact ⟨address, haddress, hon, hnames⟩

/-- It holds their addresses by kind. -/
theorem contains_targets_iff_named (t : Target) :
    ((Survey.ofMachine m options).targets t.kind).contains t.address = true ↔
      Named m options t :=
  (Survey.contains_targets_iff m options t).trans mem_named_iff

/-- The labels of the boundaries are those of the targets that are boundaries. -/
theorem mem_flatMap_labelsAt_iff {t : Target} :
    t ∈ m.boundaries.flatMap (Survey.ofMachine m options).labelsAt ↔
      Named m options t ∧ t.address ∈ m.boundaries := by
  simp only [List.mem_flatMap, Survey.mem_labelsAt_iff]
  constructor
  · rintro ⟨_, hboundary, rfl, hcontains⟩
    exact ⟨(contains_targets_iff_named t).mp hcontains, hboundary⟩
  · rintro ⟨hnamed, hboundary⟩
    exact ⟨t.address, hboundary, rfl, (contains_targets_iff_named t).mpr hnamed⟩

/-- The labels that are defined are those of the targets that are boundaries. -/
theorem mem_definitions_iff {line : Text} :
    line ∈ definitions (disassemble m options) ↔
      ∃ t : Target, line = t.label ∧ Named m options t ∧ t.address ∈ m.boundaries := by
  rw [definitions, filter_startsWith_disassemble, List.mem_map]
  simp only [mem_flatMap_labelsAt_iff, and_comm, eq_comm]

/-- No label is defined twice. -/
theorem nodup_definitions (m : Machine) (options : Options) :
    (definitions (disassemble m options)).Nodup := by
  rw [definitions, filter_startsWith_disassemble]
  exact (Survey.nodup_labels _ m 0).map fun _ _ => label_injective

/-- The text of an operand that names a target of a labelled kind: its label, or its number
    if the target is no boundary. -/
theorem operandText_of_named {op : Opcode} {role : Role} {word value : Word} {t : Target}
    (hon : options.labels t.kind = true) (hkind : Target.Kind.ofRole? op role = some t.kind)
    (hvalue : Operand.ofWord? word = some (.literal value)) (haddress : value.toNat = t.address) :
    (Survey.ofMachine m options).operandText options op role word =
      if t.address ∈ m.boundaries then t.label else Decimal.write t.address := by
  have htarget : Target.ofOperand? options op role word = some t :=
    Target.ofOperand?_eq_some_iff.mpr ⟨hon, hkind, value, hvalue, haddress⟩
  have hnumber : Operand.wordText word = Decimal.write t.address := by
    rw [Operand.wordText, hvalue, ← haddress]
    rfl
  simp only [Survey.operandText, htarget, Survey.contains_boundaries_iff, hnumber]

/-- An instruction that is not folded is shown at its address. -/
theorem exists_line_of_boundary (options : Options) {address : Nat} (haddress : address ∈ m.boundaries)
    (hfold : foldable? (m.decode (UInt16.ofNat address)) = none) :
    ∃ before after, disassemble m options = before ++
        (m.decode (UInt16.ofNat address)).textWith
          ((Survey.ofMachine m options).operandText options) :: after ∧
      extent before = address := by
  rcases exists_entry_of_mem options haddress with ⟨e, he, addresses, hshows, hmem⟩
  have hbody := hshows.body
  cases hcases : e.body with
  | instruction i =>
      rw [hcases] at hbody
      rcases hbody with ⟨shown, rfl, rfl, _⟩
      cases List.mem_singleton.mp hmem
      have hfirst : address = e.address := Option.some.inj hshows.first
      rcases List.append_of_mem he with ⟨es, es', hes⟩
      have hlines : e.lines (Survey.ofMachine m options) options =
          (e.labels.map Target.label ++ e.comment options) ++
            [e.body.text (Survey.ofMachine m options) options] := by
        rw [Entry.lines_eq, List.append_assoc]
      have hsplit := split_of_entries hes hlines
      rw [hcases] at hsplit
      exact ⟨_, _, hsplit, (extent_before hes hlines).trans hfirst.symm⟩
  | print text newline =>
      -- What a run shows is folded.
      rw [hcases] at hbody
      rcases List.mem_iff_get.mp hmem with ⟨⟨n, hn⟩, rfl⟩
      rcases List.forall₂_iff_get.mp hbody with ⟨hlength, hget⟩
      rw [hget n hn (by omega)] at hfold
      cases hfold

/-- An operand that names a target of a labelled kind is shown as the label, or as the number
    if the target is no boundary. -/
theorem exists_line_of_names {address n : Nat} {t : Target} (haddress : address ∈ m.boundaries)
    (h : (m.decode (UInt16.ofNat address)).Names n t) (hon : options.labels t.kind = true) :
    ∃ before line after, disassemble m options = before ++ line :: after ∧
      extent before = address ∧
      (operandsOf line)[n]? =
        some (if t.address ∈ m.boundaries then t.label else Decimal.write t.address) := by
  rcases exists_line_of_boundary options haddress h.not_foldable with
    ⟨before, after, hsplit, hextent⟩
  refine ⟨before, _, after, hsplit, hextent, ?_⟩
  rcases h with ⟨op, role, word, value, hop, hrole, hword, hkind, hvalue, htarget⟩
  rw [operandsOf_textWith, Instruction.tokensWith, hop]
  simp only [List.tail_cons, List.getElem?_zipWith, hrole, hword]
  rw [operandText_of_named hon hkind hvalue htarget]

/-- An operand of an instruction that refers to a label names the target. -/
theorem exists_names_of_mem_tokensWith {i : Instruction} {token : Text}
    (htoken : token ∈ (i.tokensWith ((Survey.ofMachine m options).operandText options)).tail)
    (hmark : Text.startsWith ':' token = true) :
    ∃ t : Target, token = t.label ∧ options.labels t.kind = true ∧ (∃ n, i.Names n t) ∧
      t.address ∈ m.boundaries := by
  rw [Instruction.tokensWith] at htoken
  cases hop : i.opcode with
  | none =>
      -- The number of a raw word refers to nothing.
      rw [hop] at htoken
      cases List.mem_singleton.mp htoken
      rw [Decimal.writeWord, Decimal.startsWith_write (by decide)] at hmark
      cases hmark
  | some op =>
      rw [hop] at htoken
      rcases List.mem_iff_getElem?.mp htoken with ⟨n, hn⟩
      rw [List.tail_cons, List.getElem?_zipWith] at hn
      split at hn
      · rename_i role word hrole hword
        cases hn
        cases htarget : Target.ofOperand? options op role word with
        | none =>
            simp only [Survey.operandText, htarget] at hmark
            rw [Operand.startsWith_wordText (by decide) (by decide)] at hmark
            cases hmark
        | some t =>
            rcases Target.ofOperand?_eq_some_iff.mp htarget with ⟨hon, hkind, value, hvalue, ht⟩
            rw [operandText_of_named hon hkind hvalue ht] at hmark ⊢
            by_cases haligned : t.address ∈ m.boundaries
            · rw [if_pos haligned]
              exact ⟨t, rfl, hon, ⟨n, op, role, word, value, hop, hrole, hword, hkind, hvalue, ht⟩,
                haligned⟩
            · rw [if_neg haligned, Decimal.startsWith_write (by decide)] at hmark
              cases hmark
      · cases hn

/-- What refers to a label in a listing names the target, and the target is a boundary. -/
theorem exists_named_of_mem_operandsOf {line token : Text} (hline : line ∈ disassemble m options)
    (htoken : token ∈ operandsOf line) (hmark : Text.startsWith ':' token = true) :
    ∃ t : Target, token = t.label ∧ Named m options t ∧ t.address ∈ m.boundaries := by
  have hstatement : isStatement line = true := by
    by_contra hno
    rw [operandsOf, Bool.eq_false_iff.mpr hno] at htoken
    exact absurd htoken List.not_mem_nil
  rcases exists_entry_of_isStatement hline hstatement with ⟨e, he, rfl⟩
  cases hcases : e.body with
  | print text newline =>
      rw [hcases, Body.text, operandsOf_printText] at htoken
      exact absurd htoken List.not_mem_nil
  | instruction i =>
      rcases exists_decode_of_instruction he hcases with ⟨hboundary, hi, _⟩
      rw [hcases, Body.text, operandsOf_textWith] at htoken
      rcases exists_names_of_mem_tokensWith htoken hmark with ⟨t, htext, hon, hnames, haligned⟩
      exact ⟨t, htext, ⟨hon, e.address, hboundary, hi ▸ hnames⟩, haligned⟩

/-- The labels that are referred to are those of the targets that are boundaries. -/
theorem mem_references_iff {token : Text} :
    token ∈ references (disassemble m options) ↔
      ∃ t : Target, token = t.label ∧ Named m options t ∧ t.address ∈ m.boundaries := by
  rw [references, List.mem_filter, List.mem_flatMap]
  constructor
  · rintro ⟨⟨line, hline, htoken⟩, hmark⟩
    exact exists_named_of_mem_operandsOf hline htoken hmark
  · rintro ⟨t, rfl, ⟨hon, address, haddress, n, hnames⟩, haligned⟩
    rcases exists_line_of_names haddress hnames hon with ⟨before, line, after, hsplit, _, htoken⟩
    rw [if_pos haligned] at htoken
    refine ⟨⟨line, ?_, List.mem_of_getElem? htoken⟩, startsWith_label t⟩
    rw [hsplit]
    exact List.mem_append_cons_self

/-! ### What is reported -/

/-- The addresses of a kind that are reported. -/
def reportedAddresses (m : Machine) (options : Options) (kind : Target.Kind) : List Nat :=
  ((Survey.ofMachine m options).targets kind).toList.filter
    (!(Survey.ofMachine m options).boundaries.contains ·)

/-- A target is reported if it is no boundary. -/
theorem mem_reportedAddresses_iff {t : Target} :
    t.address ∈ reportedAddresses m options t.kind ↔
      Named m options t ∧ t.address ∉ m.boundaries := by
  rw [reportedAddresses, List.mem_filter, Std.TreeSet.mem_toList, ← Std.TreeSet.contains_iff_mem,
    contains_targets_iff_named, Bool.not_eq_true', ← Bool.not_eq_true,
    Survey.contains_boundaries_iff]

/-- Addresses are reported in ascending order. -/
theorem pairwise_reportedAddresses (m : Machine) (options : Options) (kind : Target.Kind) :
    (reportedAddresses m options kind).Pairwise (· < ·) :=
  (Std.TreeSet.ordered_toList.imp Nat.compare_eq_lt.mp).filter _

theorem unalignedComment_injective {t u : Target} (h : unalignedComment t = unalignedComment u) :
    t = u :=
  label_injective (List.append_cancel_left h)

/-- The reports of some addresses, by kind and then in their order. -/
def reports (addresses : Target.Kind → List Nat) : List Text :=
  Target.Kind.all.flatMap fun kind => (addresses kind).map fun address =>
    unalignedComment ⟨kind, address⟩

theorem mem_reports_iff {addresses : Target.Kind → List Nat} {t : Target} :
    unalignedComment t ∈ reports addresses ↔ t.address ∈ addresses t.kind := by
  simp only [reports, List.mem_flatMap, List.mem_map]
  constructor
  · rintro ⟨kind, _, address, haddress, hcomment⟩
    cases unalignedComment_injective hcomment
    exact haddress
  · intro h
    exact ⟨t.kind, Survey.mem_all t.kind, t.address, h, rfl⟩

/-- No address is reported twice for a kind, so no report is made twice. -/
theorem nodup_reports {addresses : Target.Kind → List Nat}
    (h : ∀ kind, (addresses kind).Pairwise (· < ·)) : (reports addresses).Nodup := by
  have hall : Target.Kind.all.Nodup := by decide
  refine List.nodup_flatMap.mpr ⟨fun kind _ => ?_, hall.imp fun hne => ?_⟩
  · refine List.Nodup.map (fun a b hcomment => ?_) ((h kind).imp Nat.ne_of_lt)
    exact congrArg Target.address (unalignedComment_injective hcomment)
  · rintro line hfirst hsecond
    rcases List.mem_map.mp hfirst with ⟨a, _, rfl⟩
    rcases List.mem_map.mp hsecond with ⟨b, _, hcomment⟩
    exact hne (congrArg Target.kind (unalignedComment_injective hcomment)).symm

/-- A listing begins with its reports, and has no others. -/
theorem exists_disassemble_eq (m : Machine) (options : Options) :
    ∃ rest, disassemble m options = reports (reportedAddresses m options) ++ rest ∧
      ∀ t, unalignedComment t ∉ rest := by
  refine ⟨(m.listing options).entries.flatMap (Entry.lines (Survey.ofMachine m options) options),
    ?_, fun t ht => ?_⟩
  · rw [disassemble_eq]
    change (Survey.ofMachine m options).unaligned.map unalignedComment ++ _ = _
    rw [Survey.unaligned, List.map_flatMap]
    simp only [List.map_map]
    rfl
  · rcases List.mem_flatMap.mp ht with ⟨e, _, he⟩
    rcases List.append_of_mem he with ⟨front, back, hsplit⟩
    rcases Entry.split_cases hsplit with ⟨_, u, _, _, _, hu, _⟩ | ⟨_, _, hcomment, _⟩ | ⟨_, htext, _⟩
    · rw [u.label_eq] at hu
      cases hu
    · exact unalignedComment_ne_addressComment t _ hcomment
    · have hstatement := isStatement_text (Survey.ofMachine m options) options e.body
      rw [← htext] at hstatement
      cases hstatement

/-- A report is made exactly of the targets that are no boundaries. -/
theorem unalignedComment_mem_iff {t : Target} :
    unalignedComment t ∈ disassemble m options ↔ Named m options t ∧ t.address ∉ m.boundaries := by
  rcases exists_disassemble_eq m options with ⟨rest, hsplit, hrest⟩
  rw [hsplit, List.mem_append, mem_reports_iff, mem_reportedAddresses_iff,
    or_iff_left (hrest t)]

end Targets

/-! ### Closed listings -/

/-- A listing whose labels are closed and complete. -/
structure Closed (m : Machine) (options : Options) (lines : List Text) : Prop where
  /-- What an operand refers to is defined, and once. -/
  defined : ∀ token ∈ references lines, lines.count token = 1
  /-- What is defined is referred to. -/
  used : ∀ line ∈ definitions lines, line ∈ references lines
  /-- An operand that names a target of a labelled kind is shown, where its instruction
      stands, as the label if the target is a boundary, and as its number otherwise. -/
  shown : ∀ address ∈ m.boundaries, ∀ n t, (m.decode (UInt16.ofNat address)).Names n t →
    options.labels t.kind = true → ∃ before line after, lines = before ++ line :: after ∧
      extent before = address ∧ (operandsOf line)[n]? =
        some (if t.address ∈ m.boundaries then t.label else Decimal.write t.address)
  /-- The named targets that are no boundaries, and nothing else, are reported at the
      beginning, jumps before calls before data and each in ascending order. -/
  reported : ∃ addresses rest, lines = reports addresses ++ rest ∧
    (∀ t, unalignedComment t ∉ rest) ∧ (∀ kind, (addresses kind).Pairwise (· < ·)) ∧
    ∀ t : Target, t.address ∈ addresses t.kind ↔ Named m options t ∧ t.address ∉ m.boundaries
  /-- Each of them is reported once. -/
  once : ∀ t, Named m options t → t.address ∉ m.boundaries → lines.count (unalignedComment t) = 1
  /-- No label is both defined and reported. -/
  apart : ∀ t : Target, t.label ∈ lines → unalignedComment t ∉ lines
  /-- Of a kind that is not labelled there is nothing. -/
  absent : ∀ t : Target, options.labels t.kind = false →
    t.label ∉ lines ∧ t.label ∉ references lines ∧ unalignedComment t ∉ lines

/-- The labels of every listing are closed and complete. -/
theorem disassemble_closed (m : Machine) (options : Options) :
    Closed m options (disassemble m options) where
  defined := by
    intro token htoken
    have hdefined : token ∈ definitions (disassemble m options) :=
      mem_definitions_iff.mpr (mem_references_iff.mp htoken)
    have hmark : Text.startsWith ':' token = true := (List.mem_filter.mp hdefined).2
    rw [← List.count_filter hmark]
    exact List.count_eq_one_of_mem (nodup_definitions m options) hdefined
  used := fun _ hline => mem_references_iff.mpr (mem_definitions_iff.mp hline)
  shown := fun _ haddress _ _ hnames hon => exists_line_of_names haddress hnames hon
  reported := by
    rcases exists_disassemble_eq m options with ⟨rest, hsplit, hrest⟩
    exact ⟨_, rest, hsplit, hrest, pairwise_reportedAddresses m options,
      fun _ => mem_reportedAddresses_iff⟩
  once := by
    intro t hnamed hunaligned
    rcases exists_disassemble_eq m options with ⟨rest, hsplit, hrest⟩
    -- The report stands among the first lines once, and no line after them looks like it.
    have hmem : unalignedComment t ∈ reports (reportedAddresses m options) :=
      mem_reports_iff.mpr (mem_reportedAddresses_iff.mpr ⟨hnamed, hunaligned⟩)
    rw [hsplit, List.count_append, List.count_eq_zero.mpr (hrest t)]
    exact List.count_eq_one_of_mem (nodup_reports (pairwise_reportedAddresses m options)) hmem
  apart := by
    intro t hlabel hreport
    exact (unalignedComment_mem_iff.mp hreport).2 ((label_mem_iff t).mp hlabel).1
  absent := by
    intro t hoff
    have hnot : ¬ Named m options t := fun hnamed => absurd hnamed.1 (by rw [hoff]; decide)
    refine ⟨fun hlabel => hnot ?_, fun href => hnot ?_, fun hreport => hnot ?_⟩
    · rcases (label_mem_iff t).mp hlabel with ⟨_, ht⟩
      exact (contains_targets_iff_named t).mp ((Survey.mem_labelsAt_iff _ _ _).mp ht).2
    · rcases mem_references_iff.mp href with ⟨u, hu, hnamed, _⟩
      cases label_injective hu
      exact hnamed
    · exact (unalignedComment_mem_iff.mp hreport).1

end Listing

end WordMachine
