import Mathlib
import QuotaGate.Proofs.Json.Grammar
import QuotaGate.Quota.Report

/-!
# The body of a rejection

What a body says is read off its document, without the reader: an object whose member names are
texts, of which `retry_after` and `global` come at most once and make sense, or an array of these
two values. All of it must be in order for any of it to count; what other members hold is never
asked for.

A body fills the two fields of a report that the headers left empty and leaves the rest alone. So
only the first body counts that has something to fill in, and a body does not count twice.

Results:
1. `RejectionBody.ofBytes?_eq_some_iff`: the reader finds in a body what its document says.
2. `Report.mergeBody_fills`: what a body, or several in turn, make of a report.
3. `Report.mergeBody_of_perm`: other members, the order of members and the space between tokens
   do not matter.
-/

namespace QuotaGate

namespace RejectionBody

open Json

/-! ## What a document says -/

/-- A value that gives a number of seconds, or gives none. -/
inductive IsSeconds : Written → Option Binary64 → Prop
  | null : IsSeconds .null none
  | number {numeral : Numeral} {number : Number} : numeral.number? = some number →
      IsSeconds (.number numeral) (some number.toBinary64)

/-- A value that gives a flag, or gives none. -/
inductive IsFlag : Written → Option Bool → Prop
  | null : IsFlag .null none
  | bool {flag : Bool} : IsFlag (.bool flag) (some flag)

/-- What the values found for a member come to: nothing when there is none, and when there is one
what it gives. There must not be more. -/
inductive AtMostOnce {α : Type} (Gives : Written → Option α → Prop) :
    List Written → Option α → Prop
  | missing : AtMostOnce Gives [] none
  | once {written : Written} {given : Option α} : Gives written given →
      AtMostOnce Gives [written] given

/-- The values of the members of one name, in their order. -/
def valuesOf (name : String) (members : List (List Json.Piece × Written)) : List Written :=
  members.filterMap fun member =>
    if Json.Piece.text? member.1 = some name then some member.2 else none

/-- What a document says. -/
inductive Describes : Written → RejectionBody → Prop
  | object {members : List (List Json.Piece × Written)} {seconds : Option Binary64}
      {flag : Option Bool} :
      (∀ member ∈ members, (Json.Piece.text? member.1).isSome) →
      AtMostOnce IsSeconds (valuesOf "retry_after" members) seconds →
      AtMostOnce IsFlag (valuesOf "global" members) flag →
      Describes (.object members) ⟨seconds, flag⟩
  | array {items : List Written} {seconds : Option Binary64} {flag : Option Bool} :
      AtMostOnce IsSeconds (items.take 1) seconds → AtMostOnce IsFlag (items.drop 1) flag →
      Describes (.array items) ⟨seconds, flag⟩

end RejectionBody

/-- That a body is a document that says something. -/
def Says (body : Bytes) (said : RejectionBody) : Prop :=
  ∃ document, Json.IsDocument document body ∧ RejectionBody.Describes document said

namespace RejectionBody

open Json

variable {α : Type} {Gives : Written → Option α → Prop} {held : Option (Option α)}
  {written : Written} {values : List Written} {outcome : Option α}
  {members : List (List Json.Piece × Written)}

/-! ## The reader finds what a document says -/

theorem seconds?_eq_some_iff {seconds : Option Binary64} :
    seconds? written = some seconds ↔ IsSeconds written seconds := by
  constructor
  · intro found
    unfold seconds? at found
    split at found
    · cases Option.some.inj found
      exact .null
    · obtain ⟨number, read, rfl⟩ := Option.map_eq_some_iff.1 found
      exact .number read
    · exact nomatch found
  · intro gives
    cases gives with
    | null => rfl
    | number read =>
      show Option.map _ _ = _
      rw [read]
      rfl

theorem flag?_eq_some_iff {flag : Option Bool} :
    flag? written = some flag ↔ IsFlag written flag := by
  constructor
  · intro found
    unfold flag? at found
    split at found
    · cases Option.some.inj found
      exact .null
    · cases Option.some.inj found
      exact .bool
    · exact nomatch found
  · intro gives
    cases gives with
    | null => rfl
    | bool => rfl

theorem valuesOf_cons_of_eq {name : String} {pieces : List Json.Piece}
    (named : Json.Piece.text? pieces = some name) :
    valuesOf name ((pieces, written) :: members) = written :: valuesOf name members :=
  List.filterMap_cons_some (if_pos named)

theorem valuesOf_cons_of_ne {name : String} {pieces : List Json.Piece}
    (other : Json.Piece.text? pieces ≠ some name) :
    valuesOf name ((pieces, written) :: members) = valuesOf name members :=
  List.filterMap_cons_none (if_neg other)

/-- What the values come to when one may have been found before them. -/
def Completes (Gives : Written → Option α → Prop) :
    Option (Option α) → List Written → Option α → Prop
  | held, [], outcome => outcome = held.getD none
  | held, written :: values, outcome =>
    held = none ∧ ∃ given, Gives written given ∧ Completes Gives (some given) values outcome

theorem completes_some_iff {given : Option α} :
    Completes Gives (some given) values outcome ↔ values = [] ∧ outcome = given := by
  cases values with
  | nil =>
    constructor
    · intro same
      exact ⟨rfl, same⟩
    · intro both
      exact both.2
  | cons written values =>
    constructor
    · intro completes
      exact nomatch completes.1
    · intro both
      exact nomatch both.1

theorem completes_none_iff :
    Completes Gives none values outcome ↔ AtMostOnce Gives values outcome := by
  constructor
  · intro completes
    cases values with
    | nil =>
      cases completes
      exact .missing
    | cons written values =>
      obtain ⟨_, given, gives, completes⟩ := completes
      obtain ⟨rfl, rfl⟩ := completes_some_iff.1 completes
      exact .once gives
  · intro atMostOnce
    cases atMostOnce with
    | missing => rfl
    | once gives => exact ⟨rfl, _, gives, completes_some_iff.2 ⟨rfl, rfl⟩⟩

theorem ofMembers?_cons_of_eq_none {pieces : List Json.Piece}
    (unreadable : Json.Piece.text? pieces = none) (seconds : Option (Option Binary64)) (flag : Option (Option Bool)) :
    ofMembers? seconds flag ((pieces, written) :: members) = none := by
  rw [ofMembers?, unreadable]
  rfl

theorem ofMembers?_cons {pieces : List Json.Piece} {name : String}
    (named : Json.Piece.text? pieces = some name) (seconds : Option (Option Binary64))
    (flag : Option (Option Bool)) :
    ofMembers? seconds flag ((pieces, written) :: members) =
      if name = "retry_after" then
        if seconds.isSome then none
        else (seconds? written).bind fun given => ofMembers? (some given) flag members
      else if name = "global" then
        if flag.isSome then none
        else (flag? written).bind fun given => ofMembers? seconds (some given) members
      else ofMembers? seconds flag members := by
  rw [ofMembers?, named]
  rfl

/-- A known member is read where none was found before. -/
theorem known_eq_some_iff {read : Written → Option (Option α)}
    {goOn : Option α → Option RejectionBody} {said : RejectionBody} :
    (if held.isSome then none else (read written).bind goOn) = some said ↔
      held = none ∧ ∃ given, read written = some given ∧ goOn given = some said := by
  cases held with
  | none =>
    constructor
    · intro found
      exact ⟨rfl, Option.bind_eq_some_iff.1 found⟩
    · intro both
      exact Option.bind_eq_some_iff.2 both.2
  | some given =>
    constructor
    · intro found
      exact nomatch found
    · intro both
      exact nomatch both.1

/-- What the reader finds in the members, with what it found before them. -/
theorem ofMembers?_eq_some_iff (members : List (List Json.Piece × Written))
    (seconds : Option (Option Binary64)) (flag : Option (Option Bool)) {said : RejectionBody} :
    ofMembers? seconds flag members = some said ↔
      (∀ member ∈ members, (Json.Piece.text? member.1).isSome) ∧
        Completes IsSeconds seconds (valuesOf "retry_after" members) said.retryAfter ∧
        Completes IsFlag flag (valuesOf "global" members) said.global := by
  induction members generalizing seconds flag with
  | nil =>
    constructor
    · intro found
      cases Option.some.inj found
      exact ⟨fun _ member => (nomatch member), rfl, rfl⟩
    · rintro ⟨_, sameSeconds, sameFlag⟩
      show some (RejectionBody.mk (seconds.getD none) (flag.getD none)) = some said
      rw [← show said.retryAfter = seconds.getD none from sameSeconds,
        ← show said.global = flag.getD none from sameFlag]
  | cons member members ih =>
    -- The value of a known name is held from here on; any other name leaves what is held alone.
    obtain ⟨pieces, written⟩ := member
    rw [List.forall_mem_cons]
    cases named : Json.Piece.text? pieces with
    | none =>
      rw [ofMembers?_cons_of_eq_none named]
      constructor
      · intro found
        exact nomatch found
      · rintro ⟨⟨readable, _⟩, _⟩
        exact absurd readable Bool.false_ne_true
    | some name =>
      rw [ofMembers?_cons named]
      by_cases isSeconds : name = "retry_after"
      · subst isSeconds
        rw [if_pos rfl, known_eq_some_iff, valuesOf_cons_of_eq named,
          valuesOf_cons_of_ne fun same => absurd (named.symm.trans same) (by decide)]
        simp only [ih, seconds?_eq_some_iff]
        constructor
        · rintro ⟨first, given, gives, readable, completes, others⟩
          exact ⟨⟨rfl, readable⟩, ⟨first, given, gives, completes⟩, others⟩
        · rintro ⟨⟨_, readable⟩, ⟨first, given, gives, completes⟩, others⟩
          exact ⟨first, given, gives, readable, completes, others⟩
      · have notSeconds : Json.Piece.text? pieces ≠ some "retry_after" := fun same =>
          isSeconds (Option.some.inj (named.symm.trans same))
        rw [if_neg isSeconds, valuesOf_cons_of_ne notSeconds]
        by_cases isFlag : name = "global"
        · subst isFlag
          rw [if_pos rfl, known_eq_some_iff, valuesOf_cons_of_eq named]
          simp only [ih, flag?_eq_some_iff]
          constructor
          · rintro ⟨first, given, gives, readable, others, completes⟩
            exact ⟨⟨rfl, readable⟩, others, first, given, gives, completes⟩
          · rintro ⟨⟨_, readable⟩, others, first, given, gives, completes⟩
            exact ⟨first, given, gives, readable, others, completes⟩
        · have notFlag : Json.Piece.text? pieces ≠ some "global" := fun same =>
            isFlag (Option.some.inj (named.symm.trans same))
          rw [if_neg isFlag, valuesOf_cons_of_ne notFlag, ih]
          constructor
          · rintro ⟨readable, others⟩
            exact ⟨⟨rfl, readable⟩, others⟩
          · rintro ⟨⟨_, readable⟩, others⟩
            exact ⟨readable, others⟩

theorem ofWritten?_eq_some_iff {said : RejectionBody} :
    ofWritten? written = some said ↔ Describes written said := by
  constructor
  · intro found
    unfold ofWritten? at found
    split at found
    · obtain ⟨readable, seconds, flag⟩ := (ofMembers?_eq_some_iff _ _ _).1 found
      exact .object readable (completes_none_iff.1 seconds) (completes_none_iff.1 flag)
    · cases Option.some.inj found
      exact .array .missing .missing
    · obtain ⟨seconds, read, same⟩ := Option.bind_eq_some_iff.1 found
      cases Option.some.inj same
      exact .array (.once (seconds?_eq_some_iff.1 read)) .missing
    · obtain ⟨seconds, read, found⟩ := Option.bind_eq_some_iff.1 found
      obtain ⟨flag, readFlag, same⟩ := Option.bind_eq_some_iff.1 found
      cases Option.some.inj same
      exact .array (.once (seconds?_eq_some_iff.1 read)) (.once (flag?_eq_some_iff.1 readFlag))
    · exact nomatch found
  · intro describes
    cases describes with
    | object readable seconds flag =>
      exact (ofMembers?_eq_some_iff _ _ _).2
        ⟨readable, completes_none_iff.2 seconds, completes_none_iff.2 flag⟩
    | @array items seconds flag first second =>
      match items, first, second with
      | [], .missing, .missing => rfl
      | [_], .once gives, .missing =>
        show (seconds? _).bind _ = _
        rw [seconds?_eq_some_iff.2 gives]
        rfl
      | [_, _], .once gives, .once givesFlag =>
        show (seconds? _).bind (fun given => (flag? _).bind _) = _
        rw [seconds?_eq_some_iff.2 gives, flag?_eq_some_iff.2 givesFlag]
        rfl

/-- The reader finds in a body exactly what its document says. -/
theorem ofBytes?_eq_some_iff {body : Bytes} {said : RejectionBody} :
    ofBytes? body = some said ↔ Says body said := by
  unfold ofBytes? Says
  rw [Option.bind_eq_some_iff]
  simp only [Written.ofBytes?_eq_some_iff, ofWritten?_eq_some_iff]

end RejectionBody

/-- That a body gives a hint that is a duration. -/
def Hints (body : Bytes) (hint : Duration) : Prop :=
  ∃ said seconds, Says body said ∧ said.retryAfter = some seconds ∧
    Duration.ofBinary64? seconds = some hint

/-- That a body says that the whole application is locked out. -/
def SaysGlobal (body : Bytes) : Prop := ∃ said, Says body said ∧ said.global = some true

namespace Report

open Json

variable {body : Bytes}

/-! ## What a body gives -/

/-- The hint that a body gives. -/
def hintOf? (body : Bytes) : Option Duration :=
  ((RejectionBody.ofBytes? body).bind RejectionBody.retryAfter).bind Duration.ofBinary64?

/-- The scope that a body gives. -/
def scopeOf? (body : Bytes) : Option Scope :=
  if (RejectionBody.ofBytes? body).bind RejectionBody.global = some true then some .global
  else none

theorem hintOf?_eq_some_iff {hint : Duration} : hintOf? body = some hint ↔ Hints body hint := by
  unfold hintOf? Hints
  rw [Option.bind_eq_some_iff]
  constructor
  · rintro ⟨seconds, found, usable⟩
    obtain ⟨said, read, given⟩ := Option.bind_eq_some_iff.1 found
    exact ⟨said, seconds, RejectionBody.ofBytes?_eq_some_iff.1 read, given, usable⟩
  · rintro ⟨said, seconds, stated, given, usable⟩
    have read := RejectionBody.ofBytes?_eq_some_iff.2 stated
    exact ⟨seconds, Option.bind_eq_some_iff.2 ⟨said, read, given⟩, usable⟩

theorem hintOf?_eq_none_iff : hintOf? body = none ↔ ∀ hint, ¬Hints body hint := by
  rw [Option.eq_none_iff_forall_ne_some]
  exact forall_congr' fun hint => not_congr hintOf?_eq_some_iff

theorem scopeOf?_eq_some_iff {scope : Scope} :
    scopeOf? body = some scope ↔ scope = .global ∧ SaysGlobal body := by
  have isGlobal : (RejectionBody.ofBytes? body).bind RejectionBody.global = some true ↔
      SaysGlobal body := by
    unfold SaysGlobal
    rw [Option.bind_eq_some_iff]
    exact exists_congr fun said => and_congr_left fun _ => RejectionBody.ofBytes?_eq_some_iff
  unfold scopeOf?
  rw [ite_eq_iff, isGlobal]
  constructor
  · rintro (⟨stated, same⟩ | ⟨_, none⟩)
    · exact ⟨(Option.some.inj same).symm, stated⟩
    · exact nomatch none
  · rintro ⟨rfl, stated⟩
    exact .inl ⟨stated, rfl⟩

/-! ## What bodies make of a report -/

theorem fill_nothing (report : Report) :
    { report with
      retryAfter := report.retryAfter <|> none
      scope := report.scope <|> none } = report := by
  simp only [Option.orElse_eq_orElse, Option.orElse_eq_or, Option.or_none]

/-- A body fills the hint and the scope with what it gives. -/
theorem mergeBody_eq (report : Report) (body : Bytes) :
    report.mergeBody body =
      { report with
        retryAfter := report.retryAfter <|> hintOf? body
        scope := report.scope <|> scopeOf? body } := by
  unfold mergeBody hintOf? scopeOf?
  cases RejectionBody.ofBytes? body with
  | some said => rfl
  | none => exact (fill_nothing report).symm

/-- A body that says nothing changes nothing. -/
theorem mergeBody_of_silent {report : Report} (silent : ¬∃ said, Says body said) :
    report.mergeBody body = report := by
  unfold mergeBody
  split
  · next said found => exact absurd ⟨said, RejectionBody.ofBytes?_eq_some_iff.1 found⟩ silent
  · rfl

/-- What is merged twice is merged once. -/
theorem mergeBody_mergeBody (report : Report) (body : Bytes) :
    (report.mergeBody body).mergeBody body = report.mergeBody body := by
  rw [mergeBody_eq, mergeBody_eq]
  simp only [Option.orElse_eq_orElse, Option.orElse_eq_or, Option.or_assoc, Option.or_self]

/-- Several bodies fill each of the two with what the first of them gives that gives something. -/
theorem foldl_mergeBody (report : Report) (bodies : List Bytes) :
    bodies.foldl mergeBody report =
      { report with
        retryAfter := report.retryAfter <|> bodies.findSome? hintOf?
        scope := report.scope <|> bodies.findSome? scopeOf? } := by
  have first {α : Type} (held : Option α) (gives : Bytes → Option α) (body : Bytes)
      (bodies : List Bytes) : (held <|> (body :: bodies).findSome? gives) =
        ((held <|> gives body) <|> bodies.findSome? gives) := by
    rw [List.findSome?_cons]
    cases held with
    | some value => rfl
    | none =>
      cases gives body with
      | some value => rfl
      | none => rfl
  induction bodies generalizing report with
  | nil => exact (fill_nothing report).symm
  | cons body bodies ih => rw [List.foldl_cons, ih, mergeBody_eq, first, first]

/-- That of several bodies the first that gives a hint gives this one. -/
def FirstHints (bodies : List Bytes) (hint : Duration) : Prop :=
  ∃ earlier body later, bodies = earlier ++ body :: later ∧
    (∀ other ∈ earlier, ∀ usable, ¬Hints other usable) ∧ Hints body hint

theorem findSome?_hintOf?_eq_some_iff {bodies : List Bytes} {hint : Duration} :
    bodies.findSome? hintOf? = some hint ↔ FirstHints bodies hint := by
  unfold FirstHints
  rw [List.findSome?_eq_some_iff]
  simp only [hintOf?_eq_some_iff, hintOf?_eq_none_iff]
  refine exists_congr fun earlier => exists_congr fun body => exists_congr fun later => ?_
  rw [and_comm (a := Hints body hint)]

/-- What a body makes of a report, and what several bodies make of it in turn. -/
theorem mergeBody_fills (report : Report) (body : Bytes) (bodies : List Bytes) :
    (report.mergeBody body).bucket = report.bucket ∧
      (report.mergeBody body).limit = report.limit ∧
      (report.mergeBody body).remaining = report.remaining ∧
      (report.mergeBody body).reset = report.reset ∧
      (report.mergeBody body).resetAfter = report.resetAfter ∧
      (∀ hint, (report.mergeBody body).retryAfter = some hint ↔
        report.retryAfter = some hint ∨ report.retryAfter = none ∧ Hints body hint) ∧
      (∀ scope, (report.mergeBody body).scope = some scope ↔
        report.scope = some scope ∨ report.scope = none ∧ scope = .global ∧ SaysGlobal body) ∧
      ((¬∃ said, Says body said) → report.mergeBody body = report) ∧
      (report.mergeBody body).mergeBody body = report.mergeBody body ∧
      (report.scope = some .user ∨ report.scope = some .shared →
        (bodies.foldl mergeBody report).isGlobal = false) ∧
      ∀ hint, (bodies.foldl mergeBody report).retryAfter = some hint ↔
        report.retryAfter = some hint ∨ report.retryAfter = none ∧ FirstHints bodies hint := by
  have held {scope : Scope} (there : report.scope = some scope) :
      (bodies.foldl mergeBody report).scope = some scope := by
    rw [foldl_mergeBody, there]
    rfl
  refine ⟨?_, ?_, ?_, ?_, ?_, ?_, ?_, mergeBody_of_silent, mergeBody_mergeBody report body, ?_, ?_⟩
  · rw [mergeBody_eq]
  · rw [mergeBody_eq]
  · rw [mergeBody_eq]
  · rw [mergeBody_eq]
  · rw [mergeBody_eq]
  · intro hint
    rw [mergeBody_eq, Option.orElse_eq_some, hintOf?_eq_some_iff]
  · intro scope
    rw [mergeBody_eq, Option.orElse_eq_some, scopeOf?_eq_some_iff]
  · unfold isGlobal
    rintro (there | there)
    · rw [held there]
      rfl
    · rw [held there]
      rfl
  · intro hint
    rw [foldl_mergeBody, Option.orElse_eq_some, findSome?_hintOf?_eq_some_iff]

/-- A page that is no document. -/
def page : Bytes := Written.ascii "<html>busy</html>"

/-- A body with a hint of a quarter of a second and the flag. -/
def rejection : Bytes :=
  Written.ascii "\x7b\"message\": \"busy\", \"retry_after\": 0.25, \"global\": true\x7d"

/-- The rejection of a resource that is shared, without a hint. -/
def shared : Report := { empty with scope := some .shared }

theorem mergeBody_fills_after_page :
    shared.mergeBody page = shared ∧
      ([page, rejection].foldl mergeBody shared).retryAfter = some 250000000 ∧
      ([page, rejection].foldl mergeBody shared).isGlobal = false := by
  have silent : ¬∃ said, Says page said := by
    rintro ⟨said, stated⟩
    have unread : RejectionBody.ofBytes? page = none := by decide
    exact nomatch unread.symm.trans (RejectionBody.ofBytes?_eq_some_iff.2 stated)
  have stated : Says rejection ⟨some (.finite false (2 ^ 52) (-54)), some true⟩ :=
    RejectionBody.ofBytes?_eq_some_iff.1 (by decide +kernel)
  have hints : Hints rejection 250000000 := ⟨_, _, stated, rfl, by decide⟩
  obtain ⟨_, _, _, _, _, _, _, unchanged, _, spared, first⟩ :=
    mergeBody_fills shared page [page, rejection]
  refine ⟨unchanged silent, (first _).2 (.inr ⟨rfl, [page], rejection, [], rfl, ?_, hints⟩),
    spared (.inr rfl)⟩
  intro other member usable hintsOther
  cases List.mem_singleton.1 member
  obtain ⟨said, _, statedToo, _⟩ := hintsOther
  exact silent ⟨said, statedToo⟩

end Report

/-! ## Members that do not count -/

namespace RejectionBody

open Json

variable {α : Type} {Gives : Written → Option α → Prop}
  {members others : List (List Json.Piece × Written)}

/-- A member of another name than the known ones. Its name must be a text; its value may be any. -/
def IsOther (member : List Json.Piece × Written) : Prop :=
  ∃ name, Json.Piece.text? member.1 = some name ∧ name ≠ "retry_after" ∧ name ≠ "global"

theorem AtMostOnce.of_perm {values values' : List Written} {outcome : Option α}
    (shuffled : values.Perm values') (atMostOnce : AtMostOnce Gives values outcome) :
    AtMostOnce Gives values' outcome := by
  cases atMostOnce with
  | missing =>
    rw [shuffled.nil_eq.symm]
    exact .missing
  | once gives =>
    rw [List.perm_singleton.1 shuffled.symm]
    exact .once gives

theorem valuesOf_append (name : String) :
    valuesOf name (members ++ others) = valuesOf name members ++ valuesOf name others :=
  List.filterMap_append

theorem valuesOf_eq_nil {name : String} (known : name = "retry_after" ∨ name = "global")
    (other : ∀ member ∈ others, IsOther member) : valuesOf name others = [] := by
  refine List.filterMap_eq_nil_iff.2 ?_
  intro member among
  obtain ⟨text, named, notSeconds, notFlag⟩ := other member among
  refine if_neg fun same => ?_
  cases Option.some.inj (named.symm.trans same)
  rcases known with rfl | rfl
  · exact notSeconds rfl
  · exact notFlag rfl

theorem perm_valuesOf {name : String} {shuffled : List (List Json.Piece × Written)}
    (known : name = "retry_after" ∨ name = "global") (perm : shuffled.Perm (members ++ others))
    (other : ∀ member ∈ others, IsOther member) :
    (valuesOf name shuffled).Perm (valuesOf name members) := by
  have among : (valuesOf name shuffled).Perm (valuesOf name (members ++ others)) :=
    perm.filterMap _
  rwa [valuesOf_append, valuesOf_eq_nil known other, List.append_nil] at among

/-- An object says the same with its members in another order and with other members among them. -/
theorem describes_iff_of_perm {shuffled : List (List Json.Piece × Written)} {said : RejectionBody}
    (perm : shuffled.Perm (members ++ others)) (other : ∀ member ∈ others, IsOther member) :
    Describes (.object shuffled) said ↔ Describes (.object members) said := by
  have seconds := perm_valuesOf (.inl rfl) perm other
  have flag := perm_valuesOf (.inr rfl) perm other
  constructor
  · intro describes
    cases describes with
    | object readable givesSeconds givesFlag =>
      refine .object ?_ (givesSeconds.of_perm seconds) (givesFlag.of_perm flag)
      intro member among
      exact readable member (perm.mem_iff.2 (List.mem_append_left others among))
  · intro describes
    cases describes with
    | object readable givesSeconds givesFlag =>
      refine .object ?_ (givesSeconds.of_perm seconds.symm) (givesFlag.of_perm flag.symm)
      intro member among
      rcases List.mem_append.1 (perm.mem_iff.1 among) with old | new
      · exact readable member old
      · obtain ⟨name, named, _⟩ := other member new
        rw [named]
        rfl

end RejectionBody

namespace Report

open Json RejectionBody

variable {members others shuffled : List (List Json.Piece × Written)} {body longer : Bytes}

/-- A body does the same to every report when members of other names are put in anywhere, when its
members change places, and when there is other space between its tokens. -/
theorem mergeBody_of_perm (document : IsDocument (.object members) body)
    (documentToo : IsDocument (.object shuffled) longer) (perm : shuffled.Perm (members ++ others))
    (other : ∀ member ∈ others, IsOther member) (report : Report) :
    report.mergeBody longer = report.mergeBody body := by
  have same : RejectionBody.ofBytes? longer = RejectionBody.ofBytes? body := by
    unfold RejectionBody.ofBytes?
    rw [Written.ofBytes?_eq_some_iff.2 document, Written.ofBytes?_eq_some_iff.2 documentToo]
    refine Option.ext fun said => ?_
    show ofWritten? (.object shuffled) = some said ↔ ofWritten? (.object members) = some said
    rw [ofWritten?_eq_some_iff, ofWritten?_eq_some_iff]
    exact describes_iff_of_perm perm other
  unfold mergeBody
  rw [same]

/-- A name whose bytes stand for themselves. -/
def plainly (name : String) : List Json.Piece := (Written.ascii name).map .byte

def hintMember : List Json.Piece × Written :=
  (plainly "retry_after", .number ⟨false, [0], [2, 5], true, none⟩)

def flagMember : List Json.Piece × Written := (plainly "global", .bool true)

/-- A member that holds a list of a null and a brace under a known name. -/
def nestingMember : List Json.Piece × Written :=
  (plainly "data", .object [(plainly "global", .array [.null, .text (plainly "\x7d")])])

/-- A body with the hint and the flag. -/
def plainBody : Bytes := Written.ascii "\x7b \"retry_after\": 0.25, \"global\": true \x7d"

/-- The same body the other way round, with a member in between that looks like the others. -/
def nestingBody : Bytes :=
  Written.ascii
    "\x7b\"global\":true,\"data\":\x7b\"global\":[null,\"\x7d\"]\x7d,\"retry_after\":0.25\x7d"

theorem mergeBody_of_nesting : empty.mergeBody nestingBody = empty.mergeBody plainBody := by
  have plain : Written.ofBytes? plainBody = some (.object [hintMember, flagMember]) := by cbv
  have nesting : Written.ofBytes? nestingBody =
      some (.object [flagMember, nestingMember, hintMember]) := by cbv
  have perm : [flagMember, nestingMember, hintMember].Perm
      ([hintMember, flagMember] ++ [nestingMember]) := by
    show ([flagMember, nestingMember] ++ [hintMember]).Perm
      ([hintMember] ++ [flagMember, nestingMember])
    exact List.perm_append_comm
  have other : ∀ member ∈ [nestingMember], IsOther member := by
    intro member among
    cases List.mem_singleton.1 among
    have named : Json.Piece.text? nestingMember.1 = some "data" := by cbv
    exact ⟨"data", named, by decide, by decide⟩
  exact mergeBody_of_perm (Written.ofBytes?_eq_some_iff.1 plain)
    (Written.ofBytes?_eq_some_iff.1 nesting) perm other empty

end Report

end QuotaGate
