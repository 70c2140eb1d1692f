import Mathlib.Logic.Relation
import QuotaGate.Quota.Report

/-!
# The fields of a report

Every field of a report has headers of its own: one, or for the scope two, the flag of a global
lockout and the scope itself. A field depends on the first values of its headers and on nothing
else. So the same report comes out however the names are written, in whatever order headers of
different names come, whatever values follow the first one under a name, and whatever other headers
there are.

A value that is no text, or a text that makes no sense for the field, counts as if there were none
under its name, later values included. That empties the field, except that the scope may still come
from its other header.

Results:
1. `get_ofHeaders`: a field from its headers.
2. `firstOf_eq_of_edits`: what does not change the first values of some names.
3. `field_of_firstValues`: what a field depends on, and when it is empty.
-/

namespace QuotaGate

open Http

/-- A header as it is sent: a name in any case, and a value. -/
structure Line where
  name : String
  isToken_name : isToken name = true
  value : HeaderValue

namespace Line

/-- The header that a line becomes. -/
def header (line : Line) : HeaderName × HeaderValue := (⟨Text.lowerAscii line.name⟩, line.value)

/-- Whether a line has a name, compared without case. -/
def hasName (name : HeaderName) (line : Line) : Bool := Text.lowerAscii line.name == name.text

theorem hasName_iff {name : HeaderName} {line : Line} :
    line.hasName name = true ↔ line.header.1 = name := by
  unfold hasName header
  rw [beq_iff_eq]
  constructor
  · intro same
    rw [same]
  · intro same
    rw [← same]

theorem hasName_header (line : Line) : line.hasName line.header.1 = true := hasName_iff.2 rfl

end Line

/-- The first value of a name among lines. -/
def firstOf (name : HeaderName) (lines : List Line) : Option HeaderValue :=
  (lines.find? (Line.hasName name)).map Line.value

theorem first?_header (name : HeaderName) (lines : List Line) :
    Headers.first? (lines.map Line.header) name = firstOf name lines := by
  unfold Headers.first? firstOf
  induction lines with
  | nil => rfl
  | cons line lines ih =>
    rw [List.map_cons, List.find?_cons]
    show List.lookup name ((line.header.1, line.value) :: _) = _
    rw [List.lookup_cons]
    cases has : line.hasName name with
    | true =>
      rw [Line.hasName_iff.1 has, beq_self_eq_true]
      rfl
    | false =>
      have different : (name == line.header.1) = false := by
        rw [beq_eq_false_iff_ne]
        rintro rfl
        exact absurd line.hasName_header (Bool.eq_false_iff.1 has)
      rw [different]
      exact ih

/-! ## Fields -/

/-- The fields of a report. -/
inductive Field where
  | bucket
  | limit
  | remaining
  | reset
  | resetAfter
  | retryAfter
  | scope
  deriving DecidableEq, Repr

namespace Field

/-- What a field holds. -/
def Content : Field → Type
  | bucket => String
  | limit => Nat
  | remaining => Nat
  | reset => Timestamp
  | resetAfter => Duration
  | retryAfter => Duration
  | scope => Scope

/-- The headers of a field, the one that counts first in front. -/
def names : Field → List HeaderName
  | bucket => [Report.bucketName]
  | limit => [Report.limitName]
  | remaining => [Report.remainingName]
  | reset => [Report.resetName]
  | resetAfter => [Report.resetAfterName]
  | retryAfter => [Report.retryAfterName]
  | scope => [Report.globalName, Report.scopeName]

/-- The scope that a text gives under one of the two names. -/
def scopeOfText? (name : HeaderName) (text : String) : Option Scope :=
  if name = Report.globalName then if Report.saysTrue text then some .global else none
  else Scope.ofText? text

theorem scopeOfText?_globalName :
    scopeOfText? Report.globalName =
      fun text => if Report.saysTrue text then some .global else none :=
  funext fun _ => if_pos rfl

theorem scopeOfText?_scopeName : scopeOfText? Report.scopeName = Scope.ofText? :=
  funext fun _ => if_neg (by decide)

/-- What a text gives to a field under one of its names. -/
def read? : (field : Field) → HeaderName → String → Option field.Content
  | bucket, _, text => Report.bucketOfText? text
  | limit, _, text => Report.countOfText? text
  | remaining, _, text => Report.countOfText? text
  | reset, _, text => Timestamp.ofText? text
  | resetAfter, _, text => Duration.ofText? text
  | retryAfter, _, text => Duration.ofText? text
  | scope, name, text => scopeOfText? name text

/-- What a value gives to a field under one of its names. -/
def readValue? (field : Field) (name : HeaderName) (value : HeaderValue) : Option field.Content :=
  value.text?.bind (field.read? name)

end Field

theorem findSome?_eq_of_forall_mem {α β : Type} {list : List α} {read other : α → Option β}
    (same : ∀ element ∈ list, read element = other element) :
    list.findSome? read = list.findSome? other := by
  induction list with
  | nil => rfl
  | cons first rest ih =>
    obtain ⟨here, there⟩ := List.forall_mem_cons.1 same
    rw [List.findSome?_cons, List.findSome?_cons, here, ih there]

namespace Report

/-- A field of a report. -/
def get (report : Report) : (field : Field) → Option field.Content
  | .bucket => report.bucket
  | .limit => report.limit
  | .remaining => report.remaining
  | .reset => report.reset
  | .resetAfter => report.resetAfter
  | .retryAfter => report.retryAfter
  | .scope => report.scope

/-- The report of headers as they are sent. -/
def ofLines (lines : List Line) : Report := ofHeaders (lines.map Line.header)

theorem scope_ofHeaders (headers : Headers) :
    (ofHeaders headers).scope = Field.scope.names.findSome? fun name =>
      (headers.text? name).bind (Field.scopeOfText? name) := by
  unfold ofHeaders Field.names
  rw [List.findSome?_cons, List.findSome?_singleton, Field.scopeOfText?_globalName,
    Field.scopeOfText?_scopeName]
  cases headers.text? globalName with
  | none => rfl
  | some text =>
    rw [Option.bind_some, Option.map_some, Option.getD_some]
    cases saysTrue text with
    | true => rfl
    | false => rfl

/-- A field comes from the first of its headers whose value gives it something. -/
theorem get_ofHeaders (headers : Headers) (field : Field) :
    (ofHeaders headers).get field = field.names.findSome? fun name =>
      (headers.text? name).bind (field.read? name) := by
  cases field with
  | scope => exact scope_ofHeaders headers
  | bucket | limit | remaining | reset | resetAfter | retryAfter =>
    exact List.findSome?_singleton.symm

theorem get_ofLines (lines : List Line) (field : Field) :
    (ofLines lines).get field = field.names.findSome? fun name =>
      (firstOf name lines).bind (field.readValue? name) := by
  unfold ofLines
  rw [get_ofHeaders]
  refine congrArg field.names.findSome? (funext fun name => ?_)
  unfold Headers.text?
  rw [first?_header, Option.bind_assoc]
  rfl

/-- A field depends on the first values of its headers. -/
theorem get_eq_of_firstOf_eq {field : Field} {lines others : List Line}
    (same : ∀ name ∈ field.names, firstOf name lines = firstOf name others) :
    (ofLines lines).get field = (ofLines others).get field := by
  rw [get_ofLines, get_ofLines]
  refine findSome?_eq_of_forall_mem ?_
  intro name own
  rw [same name own]

end Report

/-! ## What does not change a field -/

section FirstOf

variable {name : HeaderName} {line : Line}

theorem firstOf_append (name : HeaderName) (before after : List Line) :
    firstOf name (before ++ after) = (firstOf name before).or (firstOf name after) := by
  unfold firstOf
  rw [List.find?_append, Option.map_or]

theorem firstOf_cons_of_eq (own : line.header.1 = name) (lines : List Line) :
    firstOf name (line :: lines) = some line.value := by
  unfold firstOf
  rw [List.find?_cons_of_pos (Line.hasName_iff.2 own)]
  rfl

theorem firstOf_cons_of_ne (other : line.header.1 ≠ name) (lines : List Line) :
    firstOf name (line :: lines) = firstOf name lines := by
  unfold firstOf
  rw [List.find?_cons_of_neg fun has => other (Line.hasName_iff.1 has)]

/-- The lines that do not have a name. -/
def without (name : HeaderName) (lines : List Line) : List Line :=
  lines.filter fun line => !line.hasName name

theorem without_cons_of_eq (dropped : line.header.1 = name) (lines : List Line) :
    without name (line :: lines) = without name lines := by
  unfold without
  rw [List.filter_cons, Line.hasName_iff.2 dropped]
  rfl

theorem without_cons_of_ne (kept : line.header.1 ≠ name) (lines : List Line) :
    without name (line :: lines) = line :: without name lines := by
  unfold without
  rw [List.filter_cons, Bool.eq_false_iff.2 fun has => kept (Line.hasName_iff.1 has)]
  rfl

/-- Without the lines of one name nothing is found under it, and under other names what was. -/
theorem firstOf_without (name other : HeaderName) (lines : List Line) :
    firstOf name (without other lines) = if name = other then none else firstOf name lines := by
  induction lines with
  | nil => exact (ite_self none).symm
  | cons line lines ih =>
    by_cases dropped : line.header.1 = other
    · rw [without_cons_of_eq dropped, ih]
      by_cases same : name = other
      · rw [if_pos same, if_pos same]
      · rw [if_neg same, if_neg same,
          firstOf_cons_of_ne fun own => same (own.symm.trans dropped)]
    · rw [without_cons_of_ne dropped]
      by_cases own : line.header.1 = name
      · have different : name ≠ other := fun same => dropped (own.trans same)
        rw [firstOf_cons_of_eq own, firstOf_cons_of_eq own, if_neg different]
      · rw [firstOf_cons_of_ne own, firstOf_cons_of_ne own, ih]

end FirstOf

/-- One change to the headers of a response that leaves the first values of some names alone. -/
inductive Edit (names : List HeaderName) : List Line → List Line → Prop
  /-- A name is written in another case. -/
  | recase {before after : List Line} {line : Line} {name : String} (valid : isToken name = true) :
      Text.lowerAscii name = Text.lowerAscii line.name →
      Edit names (before ++ line :: after) (before ++ ⟨name, valid, line.value⟩ :: after)
  /-- Neighbours of different names change places. -/
  | swap {before after : List Line} {one two : Line} : one.header.1 ≠ two.header.1 →
      Edit names (before ++ one :: two :: after) (before ++ two :: one :: after)
  /-- A further value comes somewhere after one of the same name. -/
  | further {before between after : List Line} {one another : Line} :
      another.header.1 = one.header.1 →
      Edit names (before ++ one :: (between ++ after))
        (before ++ one :: (between ++ another :: after))
  /-- A header of a name that is not among them comes in. -/
  | unrelated {before after : List Line} {line : Line} : line.header.1 ∉ names →
      Edit names (before ++ after) (before ++ line :: after)

theorem firstOf_eq_of_edit {names : List HeaderName} {lines others : List Line}
    (edit : Edit names lines others) {name : HeaderName} (own : name ∈ names) :
    firstOf name lines = firstOf name others := by
  cases edit with
  | @recase before after line written valid same =>
    rw [firstOf_append, firstOf_append]
    refine congrArg _ ?_
    have sameHeader : (Line.mk written valid line.value).header = line.header := by
      unfold Line.header
      rw [same]
    by_cases has : line.header.1 = name
    · rw [firstOf_cons_of_eq has, firstOf_cons_of_eq ((congrArg Prod.fst sameHeader).trans has)]
    · rw [firstOf_cons_of_ne has]
      exact (firstOf_cons_of_ne (fun again => has ((congrArg Prod.fst sameHeader).symm.trans again))
        after).symm
  | @swap before after one two different =>
    rw [firstOf_append, firstOf_append]
    refine congrArg _ ?_
    by_cases has : one.header.1 = name
    · have hasNot : two.header.1 ≠ name := fun also => different (has.trans also.symm)
      rw [firstOf_cons_of_eq has, firstOf_cons_of_ne hasNot, firstOf_cons_of_eq has]
    · rw [firstOf_cons_of_ne has]
      by_cases hasToo : two.header.1 = name
      · rw [firstOf_cons_of_eq hasToo, firstOf_cons_of_eq hasToo]
      · rw [firstOf_cons_of_ne hasToo, firstOf_cons_of_ne hasToo, firstOf_cons_of_ne has]
  | @further before between after one another again =>
    rw [firstOf_append, firstOf_append]
    refine congrArg _ ?_
    by_cases has : one.header.1 = name
    · rw [firstOf_cons_of_eq has, firstOf_cons_of_eq has]
    · rw [firstOf_cons_of_ne has, firstOf_cons_of_ne has, firstOf_append, firstOf_append,
        firstOf_cons_of_ne fun hasToo => has (again.symm.trans hasToo)]
  | @unrelated before after line unrelated =>
    have has : line.header.1 ≠ name := by
      rintro rfl
      exact unrelated own
    rw [firstOf_append, firstOf_append, firstOf_cons_of_ne has]

/-- Any number of such changes leave the first values alone. -/
theorem firstOf_eq_of_edits {names : List HeaderName} {lines others : List Line}
    (edits : Relation.EqvGen (Edit names) lines others) {name : HeaderName} (own : name ∈ names) :
    firstOf name lines = firstOf name others := by
  -- The changes are undone, too, so the induction is on the equivalence that they generate.
  induction edits with
  | rel lines others edit => exact firstOf_eq_of_edit edit own
  | refl lines => rfl
  | symm lines others _ ih => exact ih.symm
  | trans lines between others _ _ one more => exact one.trans more

/-! ## Values that give nothing -/

/-- A byte of printable ASCII, or the tab. -/
def IsLegible (byte : UInt8) : Prop := 0x20 ≤ byte ∧ byte ≤ 0x7E ∨ byte = 0x09

theorem isTextByte_iff {byte : UInt8} : HeaderValue.isTextByte byte = true ↔ IsLegible byte := by
  unfold HeaderValue.isTextByte IsLegible
  simp only [ge_iff_le, Bool.or_eq_true, Bool.and_eq_true, decide_eq_true_eq, beq_iff_eq,
    UInt8.le_iff_toNat_le, UInt8.lt_iff_toNat_lt]
  exact or_congr_left (and_congr_right fun _ => Nat.lt_succ_iff)

theorem text?_eq_none_iff {value : HeaderValue} :
    value.text? = none ↔ ∃ byte ∈ value.bytes, ¬IsLegible byte := by
  unfold HeaderValue.text?
  rw [ite_eq_right_iff]
  simp only [reduceCtorEq, imp_false, List.all_eq_true, isTextByte_iff,
    Classical.not_forall, exists_prop]

/-- That a value gives nothing to a field: it is no text, or a text that makes no sense for it. -/
def GivesNothing (field : Field) (name : HeaderName) (value : HeaderValue) : Prop :=
  (∃ byte ∈ value.bytes, ¬IsLegible byte) ∨
    ∃ text, value.text? = some text ∧ field.read? name text = none

theorem readValue?_eq_none_iff {field : Field} {name : HeaderName} {value : HeaderValue} :
    field.readValue? name value = none ↔ GivesNothing field name value := by
  unfold Field.readValue? GivesNothing
  rw [← text?_eq_none_iff]
  cases value.text? with
  | none => exact iff_of_true rfl (.inl rfl)
  | some text =>
    constructor
    · intro nothing
      exact .inr ⟨text, rfl, nothing⟩
    · rintro (noText | ⟨other, same, nothing⟩)
      · exact nomatch noText
      · cases Option.some.inj same
        exact nothing

namespace Report

variable {field : Field} {lines : List Line}

/-- A first value that gives nothing counts as if there were none under its name. -/
theorem get_of_givesNothing {name : HeaderName} {value : HeaderValue}
    (first : firstOf name lines = some value) (nothing : GivesNothing field name value) :
    (ofLines lines).get field = (ofLines (without name lines)).get field := by
  rw [get_ofLines, get_ofLines]
  refine findSome?_eq_of_forall_mem ?_
  intro other _
  rw [firstOf_without]
  by_cases same : other = name
  · rw [if_pos same, same, first]
    exact readValue?_eq_none_iff.2 nothing
  · rw [if_neg same]

theorem get_eq_none_iff : (ofLines lines).get field = none ↔
    ∀ name ∈ field.names, ∀ value, firstOf name lines = some value →
      GivesNothing field name value := by
  rw [get_ofLines, List.findSome?_eq_none_iff]
  refine forall₂_congr fun name _ => ?_
  rw [Option.bind_eq_none_iff]
  exact forall₂_congr fun value _ => readValue?_eq_none_iff

/-- No two fields have a header in common. -/
theorem names_disjoint {other : Field} (different : other ≠ field) :
    ∀ name ∈ other.names, name ∉ field.names := by
  cases other <;> cases field
  all_goals first | exact absurd rfl different | decide

/-- A value of ASCII characters. -/
def valueOf (text : String) : HeaderValue := ⟨text.toList.map fun c => UInt8.ofNat c.toNat, false⟩

/-- A value that is no text. -/
def unreadable : HeaderValue := ⟨[0xFF], false⟩

/-- A scope that cannot be read, with one behind it that could, and the flag. -/
def flagged : List Line :=
  [⟨"X-RateLimit-Scope", by decide, unreadable⟩, ⟨"X-RateLimit-Scope", by decide, valueOf "user"⟩,
    ⟨"X-RateLimit-Global", by decide, valueOf "true"⟩]

/-- The scope may be there though the first value of one of its headers is no text. -/
theorem scope_of_flagged :
    scopeName ∈ Field.scope.names ∧ firstOf scopeName flagged = some unreadable ∧
      (∃ byte ∈ unreadable.bytes, ¬IsLegible byte) ∧
      (ofLines flagged).scope = some .global := by
  have noText : unreadable.text? = none := by decide
  exact ⟨by decide, by decide +kernel, text?_eq_none_iff.1 noText, by decide +kernel⟩

/-- What a field depends on. Only the first values of its own headers count, so it does not matter
how names are written, in what order headers of different names come, what values follow a first
one, and what other headers there are; those of other fields are among them. A first value that
gives nothing counts as if there were none, and the field is empty when none gives anything. -/
theorem field_of_firstValues (field : Field) :
    (∀ lines others, (∀ name ∈ field.names, firstOf name lines = firstOf name others) →
      (ofLines lines).get field = (ofLines others).get field) ∧
    (∀ lines others, Relation.EqvGen (Edit field.names) lines others →
      (ofLines lines).get field = (ofLines others).get field) ∧
    (∀ other ≠ field, ∀ name ∈ other.names, name ∉ field.names) ∧
    (∀ lines name value, firstOf name lines = some value → GivesNothing field name value →
      (ofLines lines).get field = (ofLines (without name lines)).get field) ∧
    ∀ lines, (ofLines lines).get field = none ↔
      ∀ name ∈ field.names, ∀ value, firstOf name lines = some value →
        GivesNothing field name value := by
  refine ⟨?_, ?_, ?_, ?_, ?_⟩
  · intro lines others same
    exact get_eq_of_firstOf_eq same
  · intro lines others edits
    exact get_eq_of_firstOf_eq fun name own => firstOf_eq_of_edits edits own
  · intro other different
    exact names_disjoint different
  · intro lines name value first nothing
    exact get_of_givesNothing first nothing
  · intro lines
    exact get_eq_none_iff

/-- A hint that cannot be read, with one behind it that could, and a limit. -/
def hinted : List Line :=
  [⟨"Retry-After", by decide, unreadable⟩, ⟨"x-ratelimit-limit", by decide, valueOf "5"⟩,
    ⟨"retry-after", by decide, valueOf "2"⟩]

theorem fields_of_hinted : (ofLines hinted).retryAfter = none ∧
    (ofLines hinted).limit =
      (ofLines [⟨"X-RateLimit-Limit", by decide, valueOf "5"⟩]).limit := by
  have noText : unreadable.text? = none := by decide
  have first : firstOf retryAfterName hinted = some unreadable := by decide +kernel
  constructor
  · obtain ⟨_, _, _, _, absent⟩ := field_of_firstValues .retryAfter
    refine (absent hinted).2 ?_
    intro name own value found
    cases List.mem_singleton.1 own
    cases Option.some.inj (first.symm.trans found)
    exact .inl (text?_eq_none_iff.1 noText)
  · obtain ⟨same, _⟩ := field_of_firstValues .limit
    refine same hinted _ ?_
    intro name own
    cases List.mem_singleton.1 own
    decide +kernel

end Report

end QuotaGate
