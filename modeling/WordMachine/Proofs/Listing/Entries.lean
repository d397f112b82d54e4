import WordMachine.Proofs.Listing.Plain

/-!
# The Entries of a Listing

Which instructions an entry shows, and which lines it is made of.

Entries are put together from the end of a program backwards, one instruction at a time,
and an instruction either becomes an entry or joins the first of those after it. What an
entry shows is therefore a stretch of the walk: the address of the entry and, for a run of
output, the addresses that joined it. `Entry.Shows` says which stretch it is and what the
instructions there are, and `exists_shows` that the stretches of all entries, one after
the other, are the walk. Everything about what a listing leaves out, folds or labels is
read off these two.

The places in a listing are places in its text, so the second half of this module goes
from the text back to the entries: a line of a listing reports an unaligned target or
belongs to an entry, and there it is a label, the address or what the entry shows.

## Main definitions

* `Listing.printed`: The characters that a print shorthand prints.
* `Listing.Body.Shows`, `Listing.Entry.Shows`: The instructions that an entry shows.

## Theorems

* `Listing.entries_induction`: What is kept when an instruction is put before the entries
  after it holds of a listing.
* `Listing.exists_shows`: The entries of a listing show the walk.
* `Listing.exists_shows_of_mem`, `Listing.exists_entry_of_mem`: What an entry shows, and
  which entry shows a boundary.
* `Listing.Entry.split_cases`: The lines of an entry.
* `Listing.exists_entry_of_isStatement`, `Listing.exists_entry_of_split`: The entry that a
  line belongs to.
* `Listing.label_mem_iff`: The labels that are defined.
-/

namespace WordMachine

namespace Listing

/-- What holds after the end of a walk, and is kept when the instruction at a boundary is
    put before the entries after it, holds of a listing. -/
theorem entries_induction (m : Machine) (options : Options) {P : Nat → List Entry → Prop}
    (stop : ∀ address, m.wordCount ≤ address → P address [])
    (step : ∀ address entries, address < m.wordCount →
      P (address + m.sizeAt (UInt16.ofNat address)) entries →
      P address (attach options address ((Survey.ofMachine m options).labelsAt address)
        (m.decode (UInt16.ofNat address)) entries)) :
    P 0 (m.listing options).entries := by
  have hwalk : ∀ start, P start ((m.walk start).foldr (fun address =>
      attach options address ((Survey.ofMachine m options).labelsAt address)
        (m.decode (UInt16.ofNat address))) []) := by
    intro start
    induction start using m.walk_induction with
    | stop start hstop =>
        rw [Machine.walk_of_le hstop]
        exact stop start hstop
    | step start hlt ih =>
        rw [Machine.walk_of_lt hlt]
        exact step start _ hlt ih
  exact hwalk 0

/-! ### What an entry shows -/

/-- The characters that a print shorthand prints. -/
def printed (text : Text) (newline : Bool) : Text := text ++ if newline then ['\n'] else []

section Shows

variable (m : Machine) (options : Options)

/-- A body shows the instructions at some addresses: a single one, which is folded if it
    can be, or one that puts out a character for each character of a run. -/
def Body.Shows : Body → List Nat → Prop
  | .instruction i, addresses => ∃ address, addresses = [address] ∧
      i = m.decode (UInt16.ofNat address) ∧ (options.foldOutput = true → foldable? i = none)
  | .print text newline, addresses =>
    List.Forall₂ (fun address c => foldable? (m.decode (UInt16.ofNat address)) = some c)
      addresses (printed text newline)

/-- An entry shows the instructions at some addresses, the first of which is its own. It
    has the labels of the first address, and the others have none. -/
structure Entry.Shows (e : Entry) (addresses : List Nat) : Prop where
  first : addresses.head? = some e.address
  labels : e.labels = (Survey.ofMachine m options).labelsAt e.address
  unlabelled : ∀ address ∈ addresses.tail, (Survey.ofMachine m options).labelsAt address = []
  body : e.body.Shows m options addresses

variable {m options}

/-- An instruction by itself is an entry that shows it. -/
theorem shows_instruction {address : Nat}
    (h : options.foldOutput = true → foldable? (m.decode (UInt16.ofNat address)) = none) :
    Entry.Shows m options ⟨address, (Survey.ofMachine m options).labelsAt address,
      .instruction (m.decode (UInt16.ofNat address))⟩ [address] :=
  ⟨rfl, rfl, fun _ ha => absurd ha List.not_mem_nil, address, rfl, rfl, h⟩

/-- So is the output of one character. -/
theorem shows_character {address : Nat} {c : Char} {text : Text} {newline : Bool}
    (h : foldable? (m.decode (UInt16.ofNat address)) = some c) (hc : printed text newline = [c]) :
    Entry.Shows m options ⟨address, (Survey.ofMachine m options).labelsAt address,
      .print text newline⟩ [address] := by
  refine ⟨rfl, rfl, fun _ ha => absurd ha List.not_mem_nil, ?_⟩
  rw [Body.Shows, hc]
  exact List.Forall₂.cons h List.Forall₂.nil

/-- Putting an instruction before some entries adds its address to what they show. -/
theorem exists_shows_attach {address : Nat} {entries : List Entry} {parts : List (List Nat)}
    (h : List.Forall₂ (Entry.Shows m options) entries parts) :
    ∃ parts', List.Forall₂ (Entry.Shows m options)
        (attach options address ((Survey.ofMachine m options).labelsAt address)
          (m.decode (UInt16.ofNat address)) entries) parts' ∧
      parts'.flatten = address :: parts.flatten := by
  unfold attach
  split
  · -- The instruction is an entry of its own.
    rename_i hnone
    refine ⟨[address] :: parts, List.Forall₂.cons (shows_instruction fun hon => ?_) h, rfl⟩
    rw [if_pos hon] at hnone
    exact hnone
  · rename_i c hfold
    have hc : foldable? (m.decode (UInt16.ofNat address)) = some c :=
      (Option.ite_none_right_eq_some.mp hfold).2
    split
    · rename_i hnewline
      refine ⟨[address] :: parts, List.Forall₂.cons (shows_character hc ?_) h, rfl⟩
      rw [hnewline]
      rfl
    · split
      · -- It joins the run after it, whose address has no labels.
        rename_i next text newline rest
        cases h with
        | cons hfirst hrest =>
            rename_i part parts
            have hpart : part = next :: part.tail :=
              (List.cons_head?_tail hfirst.first).symm
            refine ⟨(address :: part) :: parts, List.Forall₂.cons ⟨rfl, rfl, ?_, ?_⟩ hrest, rfl⟩
            · intro a ha
              rw [List.tail_cons, hpart] at ha
              rcases List.mem_cons.mp ha with rfl | ha
              · exact hfirst.labels.symm
              · exact hfirst.unlabelled a ha
            · exact List.Forall₂.cons hc hfirst.body
      · exact ⟨[address] :: parts, List.Forall₂.cons (shows_character hc rfl) h, rfl⟩

/-- The entries of a listing show the instructions of the walk, each once and in their
    order. -/
theorem exists_shows (m : Machine) (options : Options) :
    ∃ parts, List.Forall₂ (Entry.Shows m options) (m.listing options).entries parts ∧
      parts.flatten = m.boundaries := by
  refine entries_induction m options
    (P := fun start entries => ∃ parts, List.Forall₂ (Entry.Shows m options) entries parts ∧
      parts.flatten = m.walk start) (fun start hstop => ?_) (fun start entries hlt ih => ?_)
  · rw [Machine.walk_of_le hstop]
    exact ⟨[], List.Forall₂.nil, rfl⟩
  · rcases ih with ⟨parts, hparts, hflatten⟩
    rw [Machine.walk_of_lt hlt, ← hflatten]
    exact exists_shows_attach hparts

/-- Every entry shows a stretch of the walk. -/
theorem exists_shows_of_mem {e : Entry} (h : e ∈ (m.listing options).entries) :
    ∃ front addresses back, e.Shows m options addresses ∧
      m.boundaries = front ++ addresses ++ back := by
  rcases exists_shows m options with ⟨parts, hparts, hflatten⟩
  rcases List.append_of_mem h with ⟨es, es', hentries⟩
  rw [hentries] at hparts
  rcases exists_of_forall₂_append hparts with ⟨ps, ps', rfl, _, hrest⟩
  rcases List.forall₂_cons_left_iff.mp hrest with ⟨addresses, ps'', hshows, _, rfl⟩
  refine ⟨ps.flatten, addresses, ps''.flatten, hshows, ?_⟩
  rw [← hflatten, List.flatten_append, List.flatten_cons, List.append_assoc]

/-- An entry with an instruction shows the one at its address, which is not folded. -/
theorem exists_decode_of_instruction {e : Entry} {i : Instruction}
    (h : e ∈ (m.listing options).entries) (hbody : e.body = .instruction i) :
    e.address ∈ m.boundaries ∧ i = m.decode (UInt16.ofNat e.address) ∧
      (options.foldOutput = true → foldable? i = none) := by
  rcases exists_shows_of_mem h with ⟨front, addresses, back, hshows, hwalk⟩
  have hinstruction := hshows.body
  rw [hbody] at hinstruction
  rcases hinstruction with ⟨address, rfl, hi, hnone⟩
  have haddress : address = e.address := Option.some.inj hshows.first
  rw [← haddress, hwalk]
  exact ⟨by simp, hi, hnone⟩

/-- Every boundary is shown by an entry. -/
theorem exists_entry_of_mem (options : Options) {address : Nat} (h : address ∈ m.boundaries) :
    ∃ e ∈ (m.listing options).entries, ∃ addresses, e.Shows m options addresses ∧
      address ∈ addresses := by
  rcases exists_shows m options with ⟨parts, hparts, hflatten⟩
  rw [← hflatten] at h
  rcases List.mem_flatten.mp h with ⟨addresses, hmem, haddress⟩
  rcases List.forall₂_iff_get.mp hparts with ⟨hlength, hget⟩
  rcases List.get_of_mem hmem with ⟨⟨n, hn⟩, rfl⟩
  exact ⟨_, List.get_mem _ ⟨n, by omega⟩, _, hget n (by omega) hn, haddress⟩

/-- The labels of an entry are those of the addresses that it shows. -/
theorem Entry.Shows.labels_eq {e : Entry} {addresses : List Nat} (h : e.Shows m options addresses) :
    e.labels = addresses.flatMap (Survey.ofMachine m options).labelsAt := by
  have haddresses : addresses = e.address :: addresses.tail := (List.cons_head?_tail h.first).symm
  rw [haddresses, List.flatMap_cons, h.labels, List.flatMap_eq_nil_iff.mpr h.unlabelled,
    List.append_nil]

/-- The labels of all entries are those of the walk. -/
theorem flatMap_labels_entries (m : Machine) (options : Options) :
    (m.listing options).entries.flatMap (·.labels) =
      m.boundaries.flatMap (Survey.ofMachine m options).labelsAt := by
  rcases exists_shows m options with ⟨parts, hparts, hflatten⟩
  rw [← hflatten]
  clear hflatten
  generalize (m.listing options).entries = entries at hparts
  induction hparts with
  | nil => rfl
  | cons hfirst _ ih =>
      rw [List.flatMap_cons, List.flatten_cons, List.flatMap_append, hfirst.labels_eq, ih]

end Shows

/-! ### The lines of an entry -/

/-- A label begins with its mark. -/
theorem startsWith_label (t : Target) : Text.startsWith ':' t.label = true := by
  rw [t.label_eq]
  rfl

theorem label_injective {t u : Target} (h : t.label = u.label) : t = u := by
  rw [t.label_eq, u.label_eq, List.cons.injEq] at h
  exact Target.name_injective h.2

/-- Where an item of two lists, one after the other, comes from. -/
theorem cases_of_append_eq_append_cons {α : Type} {xs ys before after : List α} {x : α}
    (h : xs ++ ys = before ++ x :: after) :
    (∃ middle, xs = before ++ x :: middle ∧ after = middle ++ ys) ∨
      ∃ middle, before = xs ++ middle ∧ ys = middle ++ x :: after := by
  rcases List.append_eq_append_iff.mp h with ⟨middle, hbefore, hys⟩ | ⟨middle, hxs, hafter⟩
  · exact Or.inr ⟨middle, hbefore, hys⟩
  · cases middle with
    | nil =>
        -- The first list ends right before the item.
        rw [List.append_nil] at hxs
        exact Or.inr ⟨[], by rw [List.append_nil, hxs], hafter.symm⟩
    | cons y middle =>
        rw [List.cons_append] at hafter
        cases hafter
        exact Or.inl ⟨middle, hxs, rfl⟩

/-- Where an item of a flattened list comes from. -/
theorem exists_of_flatMap_eq_append_cons {α β : Type} {f : α → List β} {xs : List α}
    {before after : List β} {x : β} (h : xs.flatMap f = before ++ x :: after) :
    ∃ ys y zs front back, xs = ys ++ y :: zs ∧ f y = front ++ x :: back ∧
      before = ys.flatMap f ++ front ∧ after = back ++ zs.flatMap f := by
  induction xs generalizing before with
  | nil => exact absurd h.symm (List.append_ne_nil_of_right_ne_nil _ (List.cons_ne_nil _ _))
  | cons first rest ih =>
      rw [List.flatMap_cons] at h
      rcases cases_of_append_eq_append_cons h with ⟨back, hfirst, rfl⟩ | ⟨middle, rfl, hrest⟩
      · exact ⟨[], first, rest, before, back, rfl, hfirst, rfl, rfl⟩
      · -- The item comes after what the first one gives.
        rcases ih hrest with ⟨ys, y, zs, front, back, rfl, hy, rfl, rfl⟩
        refine ⟨first :: ys, y, zs, front, back, rfl, hy, ?_, rfl⟩
        rw [List.flatMap_cons, List.append_assoc]

/-- The comment that gives the address of an entry, if there is one. -/
def Entry.comment (options : Options) (e : Entry) : List Text :=
  if options.addressComments then [addressComment e.address] else []

section Lines

variable {s : Survey} {options : Options}

theorem Entry.lines_eq (e : Entry) :
    e.lines s options = e.labels.map Target.label ++ (e.comment options ++ [e.body.text s options]) :=
  List.append_assoc _ _ _

/-- A line of an entry is one of its labels, its address or what it shows, and the other
    lines of the entry stand around it in this order. -/
theorem Entry.split_cases {e : Entry} {front back : List Text} {line : Text}
    (h : e.lines s options = front ++ line :: back) :
    (∃ ts t ts', e.labels = ts ++ t :: ts' ∧ front = ts.map Target.label ∧ line = t.label ∧
      back = ts'.map Target.label ++ (e.comment options ++ [e.body.text s options])) ∨
    (options.addressComments = true ∧ front = e.labels.map Target.label ∧
      line = addressComment e.address ∧ back = [e.body.text s options]) ∨
    (front = e.labels.map Target.label ++ e.comment options ∧ line = e.body.text s options ∧
      back = []) := by
  rw [Entry.lines_eq] at h
  rcases cases_of_append_eq_append_cons h with ⟨middle, hlabels, rfl⟩ | ⟨middle, rfl, hrest⟩
  · rcases List.map_eq_append_iff.mp hlabels with ⟨ts, us, hsplit, rfl, hus⟩
    rcases List.map_eq_cons_iff.mp hus with ⟨t, ts', rfl, rfl, rfl⟩
    exact Or.inl ⟨ts, t, ts', hsplit, rfl, rfl, rfl⟩
  · right
    rcases cases_of_append_eq_append_cons hrest with ⟨tail, hcomment, rfl⟩ | ⟨tail, rfl, hbody⟩
    · -- The comment is there only if it was asked for.
      rw [Entry.comment] at hcomment
      by_cases hon : options.addressComments = true
      · rw [if_pos hon] at hcomment
        rcases List.append_eq_singleton_iff.mp hcomment.symm with ⟨rfl, hline⟩ | ⟨_, hline⟩
        · cases hline
          exact Or.inl ⟨hon, List.append_nil _, rfl, rfl⟩
        · cases hline
      · rw [if_neg hon] at hcomment
        simp at hcomment
    · rcases List.append_eq_singleton_iff.mp hbody.symm with ⟨rfl, hline⟩ | ⟨_, hline⟩
      · cases hline
        exact Or.inr ⟨by rw [List.append_nil], rfl, rfl⟩
      · cases hline

end Lines

theorem startsWith_of_isStatement {line : Text} (h : isStatement line = true) :
    Text.startsWith '#' line = false ∧ Text.startsWith ':' line = false := by
  simpa [isStatement] using h

/-- A statement of a listing is what an entry shows. -/
theorem exists_entry_of_isStatement {m : Machine} {options : Options} {line : Text}
    (hline : line ∈ disassemble m options) (h : isStatement line = true) :
    ∃ e ∈ (m.listing options).entries,
      line = e.body.text (Survey.ofMachine m options) options := by
  have hmem : line ∈ (disassemble m options).filter isStatement :=
    List.mem_filter.mpr ⟨hline, h⟩
  rw [filter_isStatement_disassemble] at hmem
  rcases List.mem_map.mp hmem with ⟨e, he, htext⟩
  exact ⟨e, he, htext.symm⟩

/-- The lines that define labels are the labels of the walk. -/
theorem filter_startsWith_disassemble (m : Machine) (options : Options) :
    (disassemble m options).filter (Text.startsWith ':') =
      (m.boundaries.flatMap (Survey.ofMachine m options).labelsAt).map Target.label := by
  have hreports : ((Survey.ofMachine m options).unaligned.map unalignedComment).filter
      (Text.startsWith ':') = [] := by
    refine List.filter_eq_nil_iff.mpr fun l hl => ?_
    rcases List.mem_map.mp hl with ⟨t, _, rfl⟩
    exact Bool.false_ne_true
  have hlines : ∀ e : Entry, (e.lines (Survey.ofMachine m options) options).filter
      (Text.startsWith ':') = e.labels.map Target.label := by
    intro e
    have hlabels : (e.labels.map Target.label).filter (Text.startsWith ':') =
        e.labels.map Target.label := by
      refine List.filter_eq_self.mpr fun l hl => ?_
      rcases List.mem_map.mp hl with ⟨t, _, rfl⟩
      exact startsWith_label t
    have hcomment : (e.comment options).filter (Text.startsWith ':') = [] := by
      unfold Entry.comment
      split <;> rfl
    have hbody : ¬ Text.startsWith ':' (e.body.text (Survey.ofMachine m options) options) = true :=
      Bool.eq_false_iff.mp (startsWith_of_isStatement (isStatement_text _ _ e.body)).2
    rw [Entry.lines_eq, List.filter_append, List.filter_append, hlabels, hcomment,
      List.filter_cons_of_neg hbody, List.filter_nil, List.append_nil, List.append_nil]
  rw [← flatMap_labels_entries, List.map_flatMap, disassemble_eq, lines, List.filter_append,
    List.filter_flatMap]
  change _ ++ List.flatMap (fun e => (Entry.lines (Survey.ofMachine m options) options e).filter
    (Text.startsWith ':')) _ = _
  simp only [hlines]
  exact congrArg (· ++ _) hreports

/-- A label is defined in a listing exactly if it is a label of a boundary. -/
theorem label_mem_iff {m : Machine} {options : Options} (t : Target) :
    t.label ∈ disassemble m options ↔
      t.address ∈ m.boundaries ∧ t ∈ (Survey.ofMachine m options).labelsAt t.address := by
  have hfilter : t.label ∈ disassemble m options ↔
      t.label ∈ (disassemble m options).filter (Text.startsWith ':') := by
    rw [List.mem_filter]
    exact ⟨fun h => ⟨h, startsWith_label t⟩, fun h => h.1⟩
  rw [hfilter, filter_startsWith_disassemble, List.mem_map]
  constructor
  · rintro ⟨u, hu, hlabel⟩
    cases label_injective hlabel
    rcases List.mem_flatMap.mp hu with ⟨address, haddress, ht⟩
    have heq := ((Survey.mem_labelsAt_iff _ _ _).mp ht).1
    rw [heq]
    exact ⟨haddress, ht⟩
  · rintro ⟨haddress, ht⟩
    exact ⟨t, List.mem_flatMap.mpr ⟨t.address, haddress, ht⟩, rfl⟩

/-- The lines around a line of an entry. -/
theorem split_of_entries {m : Machine} {options : Options} {es es' : List Entry} {e : Entry}
    {front back : List Text} {line : Text} (hes : (m.listing options).entries = es ++ e :: es')
    (he : e.lines (Survey.ofMachine m options) options = front ++ line :: back) :
    disassemble m options = (Survey.ofMachine m options).unaligned.map unalignedComment ++
      (es.flatMap (Entry.lines (Survey.ofMachine m options) options) ++ front) ++ line ::
        (back ++ es'.flatMap (Entry.lines (Survey.ofMachine m options) options)) := by
  rw [disassemble_eq]
  change (Survey.ofMachine m options).unaligned.map unalignedComment ++
    (m.listing options).entries.flatMap (Entry.lines (Survey.ofMachine m options) options) = _
  rw [hes, List.flatMap_append, List.flatMap_cons, he]
  simp only [List.append_assoc, List.cons_append]

/-- A line of a listing reports an unaligned target, or it is a line of an entry. -/
theorem exists_entry_of_split {m : Machine} {options : Options} {before after : List Text}
    {line : Text} (h : disassemble m options = before ++ line :: after) :
    (∃ t ∈ (Survey.ofMachine m options).unaligned, line = unalignedComment t) ∨
    ∃ es e es' front back, (m.listing options).entries = es ++ e :: es' ∧
      e.lines (Survey.ofMachine m options) options = front ++ line :: back ∧
      before = (Survey.ofMachine m options).unaligned.map unalignedComment ++
        (es.flatMap (Entry.lines (Survey.ofMachine m options) options) ++ front) ∧
      after = back ++ es'.flatMap (Entry.lines (Survey.ofMachine m options) options) := by
  rw [disassemble_eq] at h
  change (Survey.ofMachine m options).unaligned.map unalignedComment ++
    (m.listing options).entries.flatMap (Entry.lines (Survey.ofMachine m options) options) = _ at h
  rcases cases_of_append_eq_append_cons h with ⟨middle, hreports, _⟩ | ⟨middle, rfl, hrest⟩
  · have hmem : line ∈ (Survey.ofMachine m options).unaligned.map unalignedComment := by
      rw [hreports]
      exact List.mem_append_cons_self
    rcases List.mem_map.mp hmem with ⟨t, ht, hline⟩
    exact Or.inl ⟨t, ht, hline.symm⟩
  · rcases exists_of_flatMap_eq_append_cons hrest with ⟨es, e, es', front, back, hes, he, rfl, rfl⟩
    exact Or.inr ⟨es, e, es', front, back, hes, he, rfl, rfl⟩

end Listing

end WordMachine
