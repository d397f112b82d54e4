import WordMachine.Log.Basic
import WordMachine.Pattern.Basic

/-!
# Log Settings

The filters that can be written down.

A setting is written as a list of directives between commas. A directive is a
threshold for everything, a threshold for the sources whose names begin in a
given way, or such a beginning alone, which lifts every threshold there. Of the
directives that cover a source, the one with the longest beginning decides. After
a slash a pattern can follow, which the message of a record must hold. The message
of a timed record goes on with the time that the work took, and a pattern can look
at it there.

A part that is not understood is refused, and the others are used without it.

## Main definitions

* `Log.Record.content`: The whole message of a record.
* `Log.Threshold`: Which levels are shown.
* `Log.Directive`: A threshold and the sources it is for.
* `Log.Setting`: Directives, and the pattern of messages.
* `Log.Setting.filter`: Which records are shown under a setting.
* `Log.Setting.parse`: The setting that a text denotes.
* `Log.Refusal`: Why a part of that text is refused.

## Theorems

* `Log.Setting.reaches_of_admits`: A record that is shown is of a level that is reached.
-/

namespace WordMachine

namespace Log

/-- The time that stands for every time taken: only the form of one is known
    beforehand, a decimal number and a unit. -/
def nominalTime : String := "12.345µs"

/-- The whole message of a record. -/
def Record.content (r : Record) : String :=
  if r.timed then s!"{r.message} in {nominalTime}" else r.message

/-- The most detailed level that is shown, or `none` to show nothing. -/
abbrev Threshold := Option Level

namespace Threshold

/-- Whether a level is shown under a threshold. -/
def admits (threshold : Threshold) (level : Level) : Bool :=
  match threshold with
  | none => false
  | some most => level.detail ≤ most.detail

/-- The threshold with a given name: the name of a level, or `off`, in letters of
    either case. -/
def ofName? (name : Text) : Option Threshold :=
  match Text.str (name.map Char.toLower) with
  | "off" => some none
  | "error" => some (some .error)
  | "warn" => some (some .warn)
  | "info" => some (some .info)
  | "debug" => some (some .debug)
  | "trace" => some (some .trace)
  | _ => none

/-- What a threshold admits, it admits at every less detailed level. -/
theorem admits_of_le {threshold : Threshold} {level other : Level}
    (h : threshold.admits level = true) (hle : other.detail ≤ level.detail) :
    threshold.admits other = true := by
  cases threshold with
  | none => simp [admits] at h
  | some most =>
    simp only [admits, decide_eq_true_eq] at h ⊢
    exact Nat.le_trans hle h

end Threshold

/-- A threshold and the sources it is for. -/
structure Directive where
  /-- How the names of these sources begin, or `none` for all sources. -/
  scope : Option Text
  threshold : Threshold
  deriving DecidableEq, Repr

namespace Directive

/-- Whether a directive is for a source. -/
def covers (d : Directive) (source : Source) : Bool :=
  match d.scope with
  | none => true
  | some scope => scope.isPrefixOf source.target.toList

/-- How closely a directive describes the sources it is for. -/
def closeness (d : Directive) : Nat := (d.scope.getD []).length

/-- The directive that decides between two: the closer one, and of two that are
    equally close the second. -/
def closer (first second : Directive) : Directive :=
  if first.closeness ≤ second.closeness then second else first

/-- Adds a directive to others. It takes the place of one with the same scope. -/
def insert (d : Directive) (others : List Directive) : List Directive :=
  if others.any (·.scope == d.scope) then
    others.map fun other => if other.scope = d.scope then d else other
  else others ++ [d]

end Directive

/-- Directives, and the pattern of messages. -/
structure Setting where
  directives : List Directive
  pattern : Option Pattern := none

/-- Why a part of a written filter is refused. -/
inductive Refusal
  /-- A part is no directive. -/
  | directive (text : Text)
  /-- There are several slashes. -/
  | parts (text : Text)
  /-- What follows the slash is no pattern. -/
  | pattern (text : Text) (reason : Pattern.Refusal)
  deriving DecidableEq, Repr

/-- What is said of a refusal. -/
def Refusal.notice : Refusal → String
  | .directive text => s!"warning: invalid logging spec '{text.str}', ignoring it\n"
  | .parts text => s!"warning: invalid logging spec '{text.str}' (too many '/'s), ignoring it\n"
  | .pattern text reason =>
    s!"warning: invalid regex filter - {reason.message text}, ignoring it\n"

/-- The directive that a text denotes, or why it denotes none. A name that is not
    the name of a threshold is a scope. -/
def Directive.parse (text : Text) : Except Refusal Directive :=
  match text.splitOn '=' with
  | [name] =>
    match Threshold.ofName? name with
    | some threshold => .ok ⟨none, threshold⟩
    | none => .ok ⟨some name, some .trace⟩
  | [scope, name] =>
    let name := Text.trim name
    match Threshold.ofName? name with
    | some threshold => .ok ⟨some scope, threshold⟩
    | none => if name.isEmpty then .ok ⟨some scope, some .trace⟩ else .error (.directive name)
  | _ => .error (.directive text)

namespace Setting

/-- The setting when none is given. -/
def default : Setting := ⟨[⟨none, some .info⟩], none⟩

/-- The directive that decides about a source. -/
def deciding? (s : Setting) (source : Source) : Option Directive :=
  (s.directives.filter (·.covers source)).foldl
    (fun best d => some (best.elim d (Directive.closer · d))) none

/-- The threshold for a source. -/
def threshold (s : Setting) (source : Source) : Threshold :=
  (s.deciding? source).bind Directive.threshold

/-- Whether a record is shown. -/
def admits (s : Setting) (r : Record) : Bool :=
  (s.threshold r.source).admits r.level && s.pattern.all (·.occursIn r.content)

/-- Whether some record of a level might be shown. -/
def reaches (s : Setting) (level : Level) : Bool :=
  s.directives.any (·.threshold.admits level)

/-- The directive that decides about a source is one of the filter. -/
theorem mem_of_deciding? {s : Setting} {source : Source} {d : Directive}
    (h : s.deciding? source = some d) : d ∈ s.directives := by
  -- What a choice among some directives gives is one of them, or was there before.
  have choice : ∀ (ds : List Directive) (best : Option Directive),
      ds.foldl (fun best d => some (best.elim d (Directive.closer · d))) best = some d →
        d ∈ ds ∨ best = some d := by
    intro ds
    induction ds with
    | nil => intro best hbest; exact .inr hbest
    | cons e rest ih =>
      intro best hbest
      rcases ih _ hbest with hmem | heq
      · exact .inl (by simp [hmem])
      · cases best with
        | none => exact .inl (by simp_all)
        | some b =>
          simp only [Option.elim, Directive.closer, Option.some.injEq] at heq
          split at heq <;> simp_all
  rcases choice _ none h with hmem | heq
  · exact (List.mem_filter.mp hmem).1
  · simp at heq

/-- A record that is shown is of a level that is reached. -/
theorem reaches_of_admits {s : Setting} {r : Record} {level : Level} (h : s.admits r = true)
    (hle : level.detail ≤ r.level.detail) : s.reaches level = true := by
  have hshown : (s.threshold r.source).admits r.level = true := by
    simp only [admits, Bool.and_eq_true] at h
    exact h.1
  have hlevel := Threshold.admits_of_le hshown hle
  rcases hd : s.deciding? r.source with _ | d
  · simp [threshold, hd, Threshold.admits] at hlevel
  · exact List.any_eq_true.mpr ⟨d, mem_of_deciding? hd, by simpa [threshold, hd] using hlevel⟩

/-- Which records are shown under a setting. -/
def filter (s : Setting) : Filter := ⟨s.admits, s.reaches, reaches_of_admits⟩

/-- The directives of a text, and why its other parts are refused. -/
def parseDirectives (text : Text) : List Directive × List Refusal :=
  (((text.splitOn ',').map Text.trim).filter (!·.isEmpty)).foldl
    (fun (directives, refusals) part =>
      match Directive.parse part with
      | .ok d => (d.insert directives, refusals)
      | .error refusal => (directives, refusals ++ [refusal]))
    ([], [])

/-- The setting of some directives. Without any, only errors are shown. -/
def ofDirectives (directives : List Directive) (pattern : Option Pattern) : Setting :=
  ⟨if directives.isEmpty then [⟨none, some .error⟩] else directives, pattern⟩

/-- The setting that a text denotes, and why some of its parts are refused. -/
def parse (text : Text) : Setting × List Refusal :=
  match text.splitOn '/' with
  | [directives] =>
    let (directives, refusals) := parseDirectives directives
    (ofDirectives directives none, refusals)
  | [directives, pattern] =>
    let (directives, refusals) := parseDirectives directives
    match Pattern.parse pattern with
    | .ok p => (ofDirectives directives p, refusals)
    | .error reason => (ofDirectives directives none, refusals ++ [.pattern pattern reason])
  | _ => (ofDirectives [] none, [.parts text])

end Setting

/-- The filter that a text denotes if one is given, and what is said of its parts
    that are refused. -/
def Filter.ofSetting (text : Option Text) : Filter × String :=
  match text with
  | none => (Setting.default.filter, "")
  | some text =>
    let (setting, refusals) := Setting.parse text
    (setting.filter, String.join (refusals.map Refusal.notice))

end Log

end WordMachine
