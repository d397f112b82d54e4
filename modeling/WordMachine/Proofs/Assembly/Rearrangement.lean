import WordMachine.Proofs.Assembly.Passes

/-!
# Rearranged Sources

What a source assembles to depends on its lines, and not on where they stand.

Comments and blank lines can be put anywhere, and declarations can be moved past the other
lines: all that is left of their places is the numbers of the lines, in the symbols and in
the errors. Every pass carries these numbers along, and so do the declarations and symbols
that an earlier pass hands to a later one, among which names are looked up. That none of
them decides anything is a statement about two assemblies at once.

`Alike` relates two results that are either both values or both errors. It is kept by
everything that steps are put together with, so for each pass it is enough to say what it
makes of lines with the same text: the same, up to the numbers.

## Main definitions

* `Alike`: Two results that are both values or both errors.
* `Line.SameText`, `Declaration.SameBlock`, `Symbol.SamePlace`, `Layout.SamePlaces`: What
  may differ in line numbers only.

## Theorems

* `Alike.bind`, `Alike.map`, `Alike.mapError`, `Alike.gather`, `alike_mapM_self`,
  `alike_foldlM`: Steps put together.
* `Declaration.alike_extract`, `Shorthand.alike_expand`, `Layout.alike_ofLines`,
  `Layout.alike_placeData`, `Reference.alike_resolve`, `Encoding.alike_encode`: The passes.
* `assemble_rearranged`: Assembly of rearranged sources.
-/

namespace WordMachine

/-! ### Two computations at once -/

/-- Two results that are both values, and related, or both errors, and related too. -/
inductive Alike {ε ε' α α' : Type} (E : ε → ε' → Prop) (R : α → α' → Prop) :
    Except ε α → Except ε' α' → Prop
  | ok {a : α} {a' : α'} (h : R a a') : Alike E R (.ok a) (.ok a')
  | error {e : ε} {e' : ε'} (h : E e e') : Alike E R (.error e) (.error e')

section Steps

variable {ε ε' ζ ζ' α α' β β' : Type} {E : ε → ε' → Prop} {F : ζ → ζ' → Prop}
  {R : α → α' → Prop} {S : β → β' → Prop} {xs : List α} {ys : List α'}

theorem Alike.bind {x : Except ε α} {y : Except ε' α'} {f : α → Except ε β}
    {g : α' → Except ε' β'} (h : Alike E R x y)
    (hstep : ∀ a a', R a a' → Alike E S (f a) (g a')) : Alike E S (x >>= f) (y >>= g) := by
  cases h with
  | ok h => exact hstep _ _ h
  | error h => exact .error h

theorem Alike.map {x : Except ε α} {y : Except ε' α'} {f : α → β} {g : α' → β'}
    (h : Alike E R x y) (hvalue : ∀ a a', R a a' → S (f a) (g a')) :
    Alike E S (x.map f) (y.map g) := by
  cases h with
  | ok h => exact .ok (hvalue _ _ h)
  | error h => exact .error h

theorem Alike.mapError {x : Except ε α} {y : Except ε' α'} {f : ε → ζ} {g : ε' → ζ'}
    (h : Alike E R x y) (herror : ∀ e e', E e e' → F (f e) (g e')) :
    Alike F R (x.mapError f) (y.mapError g) := by
  cases h with
  | ok h => exact .ok h
  | error h => exact .error (herror _ _ h)

/-- Results are alike that differ in what is made of an error only. -/
theorem alike_mapError_self {x : Except ε α} {f : ε → ζ} {g : ε → ζ'} (h : ∀ e, F (f e) (g e)) :
    Alike F Eq (x.mapError f) (x.mapError g) := by
  cases x with
  | ok a => exact .ok rfl
  | error e => exact .error (h e)

/-- Passes that report all their errors are alike if they are so line by line. -/
theorem Alike.gather {results : List (Except ε α)} {results' : List (Except ε' α')}
    (h : List.Forall₂ (Alike E R) results results') :
    Alike (List.Forall₂ E) (List.Forall₂ R) (gather results) (gather results') := by
  have hvalues : List.Forall₂ R (results.filterMap success?) (results'.filterMap success?) := by
    refine List.rel_filterMap (fun x y hxy => ?_) h
    cases hxy with
    | ok h => exact .some h
    | error _ => exact .none
  have herrors : List.Forall₂ E (results.filterMap failure?) (results'.filterMap failure?) := by
    refine List.rel_filterMap (fun x y hxy => ?_) h
    cases hxy with
    | ok _ => exact .none
    | error h => exact .some h
  unfold WordMachine.gather
  generalize results.filterMap failure? = errors at herrors
  generalize results'.filterMap failure? = errors' at herrors
  cases herrors with
  | nil => exact .ok hvalues
  | cons hfirst hrest => exact .error (.cons hfirst hrest)

/-- Steps over the same items are alike if each of them is. -/
theorem alike_mapM_self {f : α → Except ε β} {g : α → Except ε' β}
    (h : ∀ x, Alike E Eq (f x) (g x)) (xs : List α) : Alike E Eq (xs.mapM f) (xs.mapM g) := by
  induction xs with
  | nil => exact .ok rfl
  | cons x rest ih =>
      rw [List.mapM_cons, List.mapM_cons]
      exact (h x).bind fun _ _ hb => ih.bind fun _ _ hbs => .ok (by rw [hb, hbs])

theorem alike_foldlM {f : β → α → Except ε β} {g : β' → α' → Except ε' β'}
    (hstep : ∀ b b' a a', S b b' → R a a' → Alike E S (f b a) (g b' a'))
    (h : List.Forall₂ R xs ys) {b : β} {b' : β'} (hb : S b b') :
    Alike E S (xs.foldlM f b) (ys.foldlM g b') := by
  induction h generalizing b b' with
  | nil => exact .ok hb
  | cons hfirst _ ih =>
      rw [List.foldlM_cons, List.foldlM_cons]
      exact (hstep _ _ _ _ hb hfirst).bind fun _ _ hnext => ih hnext

/-- Related lists are searched with related results. -/
theorem rel_find? {p : α → Bool} {q : α' → Bool} (hp : ∀ x y, R x y → p x = q y)
    (h : List.Forall₂ R xs ys) : Option.Rel R (xs.find? p) (ys.find? q) := by
  induction h with
  | nil => exact .none
  | @cons x y _ _ hfirst _ ih =>
      rw [List.find?_cons, List.find?_cons, hp x y hfirst]
      cases q y with
      | true => exact .some hfirst
      | false => exact ih

end Steps

/-! ### What may differ in line numbers -/

/-- Lines with the same text. -/
def Line.SameText (l l' : Line) : Prop := l.text = l'.text

theorem Line.SameText.tokens_eq {l l' : Line} (h : l.SameText l') : l.tokens = l'.tokens :=
  congrArg Text.words h

theorem Line.SameText.head_eq {l l' : Line} (h : l.SameText l') : l.head = l'.head :=
  congrArg (·.headD []) h.tokens_eq

/-- Errors of the same kind. -/
def AssemblyError.SameKind (e e' : AssemblyError) : Prop := e.kind = e'.kind

/-- Declarations of the same block of data. -/
def Declaration.SameBlock (d d' : Declaration) : Prop :=
  d.name = d'.name ∧ d.value = d'.value ∧ d.count = d'.count

/-- Symbols of the same name that stand for the same thing at the same address. -/
def Symbol.SamePlace (s s' : Symbol) : Prop :=
  s.name = s'.name ∧ s.kind = s'.kind ∧ s.address = s'.address

/-- Layouts of the same size with the same symbols. -/
def Layout.SamePlaces (l l' : Layout) : Prop :=
  l.size = l'.size ∧ List.Forall₂ Symbol.SamePlace l.symbols.symbols l'.symbols.symbols

open AssemblyError (SameKind)

/-! ### Declarations -/

namespace Declaration

variable {line line' : Line}

/-- What is wrong with a size does not depend on the line. -/
theorem alike_parseCount (line line' : Line) (token : Text) :
    Alike SameKind Eq (parseCount line token) (parseCount line' token) := by
  unfold parseCount
  cases Decimal.read token with
  | error e => exact .error rfl
  | ok count =>
      by_cases hsize : count.toNat ≤ memorySize
      · simp only [hsize, if_true]
        exact .ok rfl
      · simp only [hsize, if_false]
        exact .error rfl

theorem alike_ofTokens (line line' : Line) (name value : Text) (count : Option Text) :
    Alike SameKind SameBlock (ofTokens line name value count) (ofTokens line' name value count) := by
  refine (alike_mapError_self ?_).bind fun _ _ _ => ?_
  · exact fun _ => rfl
  refine (alike_mapError_self ?_).bind fun v _ hv => ?_
  · exact fun _ => rfl
  cases count with
  | none => exact .ok ⟨rfl, hv, rfl⟩
  | some token => exact (alike_parseCount line line' token).bind fun _ _ hn => .ok ⟨rfl, hv, hn⟩

/-- Declarations with the same text declare the same. -/
theorem alike_parse (h : line.SameText line') :
    Alike SameKind SameBlock (parse line) (parse line') := by
  unfold parse
  rw [h.tokens_eq]
  split
  · exact alike_ofTokens _ _ _ _ _
  · exact alike_ofTokens _ _ _ _ _
  · exact .error rfl

theorem alike_parseNew {accepted accepted' : List Declaration}
    (haccepted : List.Forall₂ SameBlock accepted accepted') (h : line.SameText line') :
    Alike SameKind SameBlock (parseNew accepted line) (parseNew accepted' line') := by
  refine (alike_parse h).bind fun d d' hd => ?_
  have hfind : Option.Rel SameBlock (accepted.find? (·.name == d.name))
      (accepted'.find? (·.name == d'.name)) :=
    rel_find? (fun x y hxy => by rw [hxy.1, hd.1]) haccepted
  generalize accepted.find? (·.name == d.name) = found at hfind ⊢
  generalize accepted'.find? (·.name == d'.name) = found' at hfind ⊢
  cases hfind with
  | none => exact .ok hd
  | some _ => exact .error rfl

theorem alike_parseAll {lines lines' : List Line} (h : List.Forall₂ Line.SameText lines lines')
    {accepted accepted' : List Declaration}
    (haccepted : List.Forall₂ SameBlock accepted accepted') :
    List.Forall₂ (Alike SameKind SameBlock) (parseAll accepted lines)
      (parseAll accepted' lines') := by
  induction h generalizing accepted accepted' with
  | nil => exact .nil
  | cons hline _ ih =>
      have hnew := alike_parseNew haccepted hline
      unfold parseAll
      -- What is accepted is accepted in both, and what is refused in neither.
      generalize parseNew accepted _ = result at hnew ⊢
      generalize parseNew accepted' _ = result' at hnew ⊢
      cases hnew with
      | ok hd => exact .cons (.ok hd) (ih (.cons hd haccepted))
      | error he => exact .cons (.error he) (ih haccepted)

/-- Sources with the same declarations and the same other lines are split alike. -/
theorem alike_extract {lines lines' : List Line}
    (hcode : List.Forall₂ Line.SameText (lines.filter (!isDeclaration ·))
      (lines'.filter (!isDeclaration ·)))
    (hdata : List.Forall₂ Line.SameText (lines.filter isDeclaration)
      (lines'.filter isDeclaration)) :
    Alike (List.Forall₂ SameKind)
      (fun r r' => List.Forall₂ Line.SameText r.1 r'.1 ∧ List.Forall₂ SameBlock r.2 r'.2)
      (extract lines) (extract lines') :=
  (Alike.gather (alike_parseAll hdata .nil)).bind fun _ _ hds => .ok ⟨hcode, hds⟩

end Declaration

/-! ### Shorthands -/

namespace Shorthand

variable {line line' : Line}

theorem alike_quoted (h : line.SameText line') (name : Text) :
    Alike SameKind Eq (quoted line name) (quoted line' name) := by
  unfold quoted
  rw [show line.text = line'.text from h]
  by_cases hquotes : line'.text.count quote = 2
  · simp only [hquotes, if_true]
    cases unquote? (Text.trim (line'.text.drop name.length)) with
    | none => exact .error rfl
    | some text => exact .ok rfl
  · simp only [hquotes, if_false]
    exact .error rfl

theorem alike_printLines (h : line.SameText line') (name : Text) :
    Alike SameKind Eq (printLines line name) (printLines line' name) := by
  refine (alike_quoted h name).bind fun text _ htext => ?_
  cases htext
  cases text.find? (!isPrintable ·) with
  | none => exact .ok rfl
  | some c => exact .error rfl

/-- Shorthands with the same text stand for the same instructions. -/
theorem alike_expandLine (h : line.SameText line') :
    Alike SameKind Eq (expandLine line) (expandLine line') := by
  unfold expandLine
  rw [h.head_eq, h.tokens_eq]
  split
  · exact alike_printLines h _
  · split
    · exact (alike_printLines h _).bind fun _ _ htexts => .ok (by rw [htexts])
    · split
      · split
        · exact .ok rfl
        · exact .error rfl
      · exact .error rfl

theorem alike_expandIfShorthand (h : line.SameText line') :
    Alike SameKind (List.Forall₂ Line.SameText) (expandIfShorthand line)
      (expandIfShorthand line') := by
  have hmark : isShorthand line = isShorthand line' := congrArg (Text.startsWith '!') h
  unfold expandIfShorthand
  rw [hmark]
  split
  · refine (alike_expandLine h).map fun texts _ htexts => ?_
    cases htexts
    rw [List.forall₂_map_left_iff, List.forall₂_map_right_iff, List.forall₂_same]
    exact fun _ _ => rfl
  · exact .ok (.cons h .nil)

/-- Sources with the same lines are expanded to the same lines. -/
theorem alike_expand {lines lines' : List Line} (h : List.Forall₂ Line.SameText lines lines') :
    Alike (List.Forall₂ SameKind) (List.Forall₂ Line.SameText) (expand lines) (expand lines') :=
  (Alike.gather (List.rel_map (fun _ _ hline => alike_expandIfShorthand hline) h)).map fun _ _ hparts =>
    List.rel_flatten hparts

end Shorthand

/-! ### Layout -/

namespace Layout

variable {layout layout' : Layout} {line line' : Line}

/-- A name is taken in both of two tables with the same symbols, or in neither. -/
theorem rel_find?_symbols (h : layout.SamePlaces layout') (space : Namespace) (name : Text) :
    Option.Rel Symbol.SamePlace (layout.symbols.find? space name)
      (layout'.symbols.find? space name) :=
  rel_find? (fun s s' hs => by rw [Symbol.answers, Symbol.answers, hs.1, hs.2.1]) h.2

/-- Symbols that differ in their lines only are added alike. -/
theorem alike_add (h : layout.SamePlaces layout') {s s' : Symbol} (hs : s.SamePlace s') :
    Alike Symbol.SamePlace
      (fun t t' => List.Forall₂ Symbol.SamePlace t.symbols t'.symbols)
      (layout.symbols.add s) (layout'.symbols.add s') := by
  have hfind := rel_find?_symbols h s'.kind.space s'.name
  unfold SymbolTable.add
  rw [hs.1, hs.2.1]
  generalize layout.symbols.find? _ _ = found at hfind ⊢
  generalize layout'.symbols.find? _ _ = found' at hfind ⊢
  cases hfind with
  | none => exact .ok (List.rel_append h.2 (.cons hs .nil))
  | some hexisting => exact .error hexisting

theorem alike_placeLabel (h : layout.SamePlaces layout') (hline : line.SameText line')
    (name : Text) :
    Alike SameKind SamePlaces (layout.placeLabel line name) (layout'.placeLabel line' name) := by
  have hsymbol : Symbol.SamePlace ⟨name, .label, UInt16.ofNat layout.size, line.number⟩
      ⟨name, .label, UInt16.ofNat layout'.size, line'.number⟩ := ⟨rfl, rfl, by rw [h.1]⟩
  have hadd := alike_add h hsymbol
  unfold placeLabel
  rw [h.1] at *
  rw [hline.tokens_eq]
  split
  · exact .error rfl
  · split
    · exact .error rfl
    · cases Name.check name with
      | error reason => exact .error rfl
      | ok _ =>
          generalize layout.symbols.add _ = result at hadd ⊢
          generalize layout'.symbols.add _ = result' at hadd ⊢
          cases hadd with
          | ok hsymbols => exact .ok ⟨rfl, hsymbols⟩
          | error _ => exact .error rfl

/-- Lines with the same text are placed alike. -/
theorem alike_place (h : layout.SamePlaces layout') (hline : line.SameText line') :
    Alike SameKind SamePlaces (layout.place line) (layout'.place line') := by
  have hstatement : line.statement = line'.statement := by
    unfold Line.statement
    rw [hline.head_eq]
  unfold place
  rw [hstatement]
  cases line'.statement with
  | label name => exact alike_placeLabel h hline name
  | raw => exact .ok ⟨congrArg (· + 1) h.1, h.2⟩
  | instruction op => exact .ok ⟨congrArg (· + op.size) h.1, h.2⟩
  | unknown => exact .error rfl

theorem alike_placeAll {lines lines' : List Line} (h : List.Forall₂ Line.SameText lines lines')
    (hlayout : layout.SamePlaces layout') :
    List.Forall₂ SameKind (layout.placeAll lines).1 (layout'.placeAll lines').1 ∧
      (layout.placeAll lines).2.SamePlaces (layout'.placeAll lines').2 := by
  induction h generalizing layout layout' with
  | nil => exact ⟨.nil, hlayout⟩
  | cons hline _ ih =>
      have hplace := alike_place hlayout hline
      unfold placeAll
      generalize layout.place _ = result at hplace ⊢
      generalize layout'.place _ = result' at hplace ⊢
      cases hplace with
      | ok hnext => exact ih hnext
      | error he => exact ⟨.cons he (ih hlayout).1, (ih hlayout).2⟩

/-- Sources with the same lines are laid out alike. -/
theorem alike_ofLines {lines lines' : List Line} (h : List.Forall₂ Line.SameText lines lines') :
    Alike (List.Forall₂ SameKind)
      (fun r r' => List.Forall₂ Line.SameText r.1 r'.1 ∧ r.2.SamePlaces r'.2)
      (ofLines lines) (ofLines lines') := by
  have hcode : List.Forall₂ Line.SameText (lines.filter (!·.isLabel))
      (lines'.filter (!·.isLabel)) := by
    refine List.rel_filter (fun l l' hl => ?_) h
    have hlabel : l.isLabel = l'.isLabel := congrArg (Text.startsWith ':') hl.head_eq
    simp only [hlabel]
  have hempty : empty.SamePlaces empty := ⟨rfl, .nil⟩
  rcases alike_placeAll h hempty with ⟨herrors, hfinal⟩
  unfold ofLines
  generalize empty.placeAll lines = result at herrors hfinal ⊢
  generalize empty.placeAll lines' = result' at herrors hfinal ⊢
  rcases result with ⟨errors, final⟩
  rcases result' with ⟨errors', final'⟩
  cases herrors with
  | nil => exact .ok ⟨hcode, hfinal⟩
  | cons hfirst hrest => exact .error (.cons hfirst hrest)

theorem alike_placeBlock (h : layout.SamePlaces layout') {d d' : Declaration}
    (hd : d.SameBlock d') :
    Alike SameKind SamePlaces (layout.placeBlock d) (layout'.placeBlock d') := by
  rcases hd with ⟨hname, hvalue, hcount⟩
  have hsymbol : Symbol.SamePlace
      ⟨d.name, .data d.value d.count, UInt16.ofNat layout.size, d.line⟩
      ⟨d'.name, .data d'.value d'.count, UInt16.ofNat layout'.size, d'.line⟩ :=
    ⟨hname, by rw [hvalue, hcount], by rw [h.1]⟩
  have hadd := alike_add h hsymbol
  unfold placeBlock
  rw [h.1] at *
  split
  · exact .error rfl
  · generalize layout.symbols.add _ = result at hadd ⊢
    generalize layout'.symbols.add _ = result' at hadd ⊢
    cases hadd with
    | ok hsymbols => exact .ok ⟨by rw [hcount], hsymbols⟩
    | error _ => exact .error rfl

/-- Declarations of the same blocks are placed alike. -/
theorem alike_placeData (h : layout.SamePlaces layout') {ds ds' : List Declaration}
    (hds : List.Forall₂ Declaration.SameBlock ds ds') :
    Alike SameKind SamePlaces (layout.placeData ds) (layout'.placeData ds') := by
  have hfold : Alike SameKind SamePlaces (ds.foldlM placeBlock layout)
      (ds'.foldlM placeBlock layout') :=
    alike_foldlM (R := Declaration.SameBlock) (fun _ _ _ _ hl hd => alike_placeBlock hl hd) hds h
  refine hfold.bind fun final final' hfinal => ?_
  rw [hfinal.1]
  split
  · exact .ok hfinal
  · exact .error rfl

end Layout

/-! ### References and encoding -/

namespace Reference

variable {layout layout' : Layout} {line line' : Line}

/-- A reference stands for the same address. -/
theorem alike_resolveToken (h : layout.SamePlaces layout') (token : Text) :
    Alike SameKind Eq (resolveToken layout.symbols line token)
      (resolveToken layout'.symbols line' token) := by
  have haddress : ∀ space, Alike SameKind Eq (address layout.symbols line space token)
      (address layout'.symbols line' space token) := by
    intro space
    have hfind := Layout.rel_find?_symbols h space (token.drop 1)
    unfold address
    generalize layout.symbols.find? _ _ = found at hfind ⊢
    generalize layout'.symbols.find? _ _ = found' at hfind ⊢
    cases hfind with
    | none => exact .error rfl
    | some hs => exact .ok (by rw [hs.2.2])
  unfold resolveToken
  split
  · exact haddress .label
  · split
    · exact haddress .data
    · exact .ok rfl

theorem alike_resolveLine (h : layout.SamePlaces layout') (hline : line.SameText line') :
    Alike (List.Forall₂ SameKind) Line.SameText (resolveLine layout.symbols line)
      (resolveLine layout'.symbols line') := by
  have hoperands : List.Forall₂ (Alike SameKind Eq)
      (line.operands.map (resolveToken layout.symbols line))
      (line'.operands.map (resolveToken layout'.symbols line')) := by
    rw [Line.operands, Line.operands, hline.tokens_eq, List.forall₂_map_left_iff,
      List.forall₂_map_right_iff, List.forall₂_same]
    exact fun token _ => alike_resolveToken h token
  refine (Alike.gather hoperands).bind fun texts texts' htexts => ?_
  rw [List.forall₂_eq_eq_eq] at htexts
  rw [hline.tokens_eq, htexts]
  exact .ok rfl

/-- Sources with the same lines are resolved to the same lines. -/
theorem alike_resolve (h : layout.SamePlaces layout') {lines lines' : List Line}
    (hlines : List.Forall₂ Line.SameText lines lines') :
    Alike (List.Forall₂ SameKind) (List.Forall₂ Line.SameText) (resolve layout.symbols lines)
      (resolve layout'.symbols lines') :=
  (Alike.gather (List.rel_map (fun _ _ hline => alike_resolveLine h hline) hlines)).mapError
    fun _ _ herrors => List.rel_flatten herrors

end Reference

namespace Encoding

variable {line line' : Line}

theorem alike_operandTokens (h : line.SameText line') (expected : Nat) :
    Alike SameKind Eq (operandTokens line expected) (operandTokens line' expected) := by
  unfold operandTokens
  rw [Line.operands, Line.operands, h.tokens_eq]
  split
  · exact .ok rfl
  · exact .error rfl

/-- Lines with the same text are encoded in the same words. -/
theorem alike_encodeLine (h : line.SameText line') :
    Alike SameKind Eq (encodeLine line) (encodeLine line') := by
  unfold encodeLine
  rw [h.head_eq]
  split
  · refine (alike_operandTokens h 1).bind fun tokens _ htokens => ?_
    cases htokens
    refine alike_mapM_self (fun _ => alike_mapError_self ?_) tokens
    exact fun _ => rfl
  · cases Opcode.ofMnemonic? line'.head with
    | none => exact .error rfl
    | some op =>
        refine (alike_operandTokens h op.arity).bind fun tokens _ htokens => ?_
        cases htokens
        have hwords : Alike SameKind Eq (tokens.mapM (encodeOperand line))
            (tokens.mapM (encodeOperand line')) := by
          refine alike_mapM_self (fun _ => alike_mapError_self ?_) tokens
          exact fun _ => rfl
        exact hwords.bind fun _ _ hsame => .ok (congrArg (op.word :: ·) hsame)

/-- Sources with the same lines are encoded in the same words. -/
theorem alike_encode {lines lines' : List Line} (h : List.Forall₂ Line.SameText lines lines') :
    Alike (List.Forall₂ SameKind) Eq (encode lines) (encode lines') := by
  refine (Alike.gather (List.rel_map (fun _ _ hline => alike_encodeLine hline) h)).map
    fun parts parts' hparts => ?_
  rw [List.forall₂_eq_eq_eq] at hparts
  rw [hparts]

end Encoding

/-! ### Sources -/

/-- The texts of the lines that mean something and declare nothing, in their order. -/
def codeTexts (source : Text) : List Text :=
  ((Line.ofSource source).filter (!Declaration.isDeclaration ·)).map (·.text)

/-- The texts of the declarations, in their order. -/
def dataTexts (source : Text) : List Text :=
  ((Line.ofSource source).filter Declaration.isDeclaration).map (·.text)

theorem sameText_of_map_eq {lines lines' : List Line}
    (h : lines.map (·.text) = lines'.map (·.text)) : List.Forall₂ Line.SameText lines lines' :=
  (map_eq_map_iff_forall₂ _ _ _ _).mp h

/-- One source is assembled as the other is, pass by pass. -/
theorem alike_assemble {source source' : Text} (hcode : codeTexts source = codeTexts source')
    (hdata : dataTexts source = dataTexts source') :
    Alike (List.Forall₂ SameKind)
      (fun p q => p.words = q.words ∧ p.codeSize = q.codeSize ∧
        List.Forall₂ Symbol.SamePlace p.symbols q.symbols)
      (assemble source) (assemble source') := by
  refine (Declaration.alike_extract (sameText_of_map_eq hcode)
    (sameText_of_map_eq hdata)).bind fun (lines, ds) (lines', ds') ⟨hlines, hds⟩ => ?_
  refine (Shorthand.alike_expand hlines).bind fun expanded expanded' hexpanded => ?_
  refine (Layout.alike_ofLines hexpanded).bind fun (code, layout) (code', layout') ⟨hcode, hlayout⟩ => ?_
  refine ((Layout.alike_placeData hlayout hds).mapError fun e e' he => ?_).bind
    fun final final' hfinal => ?_
  · exact .cons he .nil
  refine (Reference.alike_resolve hfinal hcode).bind fun resolved resolved' hresolved => ?_
  refine (Encoding.alike_encode hresolved).bind fun words words' hwords => ?_
  -- The same blocks are filled with the same words.
  have hblocks : ds.flatMap Declaration.words = ds'.flatMap Declaration.words := by
    rw [← List.forall₂_eq_eq_eq]
    refine List.rel_flatMap hds fun d d' hd => ?_
    rw [Declaration.words, Declaration.words, hd.2.1, hd.2.2, List.forall₂_eq_eq_eq]
  exact .ok ⟨congrArg₂ (· ++ ·) hwords hblocks, hlayout.1, hfinal.2⟩

/-- Sources with the same declarations and the same other lines, each in the same order but
    anywhere among comments, blank lines and each other, assemble to the same words and
    symbols, up to the lines of the symbols, or fail for reasons of the same kinds. -/
theorem assemble_rearranged {source source' : Text} (hcode : codeTexts source = codeTexts source')
    (hdata : dataTexts source = dataTexts source') :
    (∃ p q, assemble source = .ok p ∧ assemble source' = .ok q ∧
      p.words = q.words ∧ p.bytes = q.bytes ∧ p.codeSize = q.codeSize ∧
      List.Forall₂ (fun s s' : Symbol => s.name = s'.name ∧ s.kind = s'.kind ∧
        s.address = s'.address) p.symbols q.symbols) ∨
    (∃ errors errors', assemble source = .error errors ∧ assemble source' = .error errors' ∧
      errors.map AssemblyError.kind = errors'.map AssemblyError.kind) := by
  have hboth := alike_assemble hcode hdata
  generalize assemble source = result at hboth ⊢
  generalize assemble source' = result' at hboth ⊢
  cases hboth with
  | ok h => exact Or.inl ⟨_, _, rfl, rfl, h.1, congrArg Word.toBytes h.1, h.2.1, h.2.2⟩
  | error h => exact Or.inr ⟨_, _, rfl, rfl, (map_eq_map_iff_forall₂ _ _ _ _).mpr h⟩

/-- A source with its data among the instructions. -/
def dataAmid : Text := "JMP :b\n.d 7 2\n:b\nOUT .d".toList

/-- The same with its data first, a comment and a blank line. -/
def dataFirst : Text := "# data\n.d 7 2\n\nJMP :b\n:b\nOUT .d".toList

/-- Both assemble to the same words, and their symbols differ in their lines only. -/
theorem assemble_rearranged_dataFirst :
    codeTexts dataAmid = codeTexts dataFirst ∧ dataTexts dataAmid = dataTexts dataFirst ∧
      ∃ p q, assemble dataAmid = .ok p ∧ assemble dataFirst = .ok q ∧
        p.words = [6, 2, 19, 4, 7, 7] ∧ q.words = [6, 2, 19, 4, 7, 7] ∧
        p.symbols = [⟨['b'], .label, 2, 3⟩, ⟨['d'], .data 7 2, 4, 2⟩] ∧
        q.symbols = [⟨['b'], .label, 2, 5⟩, ⟨['d'], .data 7 2, 4, 2⟩] := by
  have hamid : assemble dataAmid = .ok ⟨[6, 2, 19, 4, 7, 7], 4,
      [⟨['b'], .label, 2, 3⟩, ⟨['d'], .data 7 2, 4, 2⟩]⟩ := rfl
  have hfirst : assemble dataFirst = .ok ⟨[6, 2, 19, 4, 7, 7], 4,
      [⟨['b'], .label, 2, 5⟩, ⟨['d'], .data 7 2, 4, 2⟩]⟩ := rfl
  refine ⟨by decide, by decide, ?_⟩
  rcases @assemble_rearranged dataAmid dataFirst (by decide) (by decide) with
    ⟨p, q, hp, hq, hwords, _⟩ | ⟨errors, _, hfails, _⟩
  · cases hamid.symm.trans hp
    cases hfirst.symm.trans hq
    exact ⟨_, _, hp, hq, rfl, hwords.symm, rfl, rfl⟩
  · cases hamid.symm.trans hfails

end WordMachine
