import Mathlib.Data.List.Induction
import Mathlib.Data.List.Nodup
import Mathlib.Data.List.Perm.Subperm
import QuotaGate.Proofs.Route.Pieces

/-!
# Values that are filled in again

A value is meant to come into the path as it is. But the parameters are filled in one after the
other, each all over the path, so a value may bring braces that make, with what stands beside them,
a placeholder that the template does not have. A later parameter of that name fills it as well, and
then the path depends on the order of the parameters (`Route.compile_ne_verbatim`).

Here is what a path with the values as they are would be (`Route.verbatim`), and exactly when it is
what is compiled: the values of the other parameters must not bring the placeholder of any.

Results:
1. `Gapped.fill_close_iff`: filling a parameter into a text hits exactly the places meant for it if
   its placeholder does not stand anywhere else, or stands for itself.
2. `Route.occurrences_fillAll_mono`: a placeholder that values have brought stays.
3. `Route.compile_eq_verbatim_iff`: whatever parameters are chosen, in whatever order, the path is
   the template with the values as they are, exactly if no parameter's placeholder is brought by the
   values of the others, or stands for itself.
-/

namespace QuotaGate

/-! ## Placeholders in a text -/

/-- How often the placeholder of a name stands in a text. -/
def occurrences (name : List Char) : List Char → Nat
  | [] => 0
  | c :: rest =>
    occurrences name rest + if (PathParam.placeholder name).isPrefixOf (c :: rest) then 1 else 0

section Occurrences

open PathParam (placeholder)

variable {name : List Char}

theorem occurrences_cons_of_begins {c : Char} {rest : List Char}
    (here : placeholder name <+: c :: rest) :
    occurrences name (c :: rest) = occurrences name rest + 1 := by
  rw [occurrences, if_pos (List.isPrefixOf_iff_prefix.2 here)]

theorem occurrences_cons {c : Char} {rest : List Char} (absent : ¬placeholder name <+: c :: rest) :
    occurrences name (c :: rest) = occurrences name rest := by
  rw [occurrences, if_neg fun here => absent (List.isPrefixOf_iff_prefix.1 here), Nat.add_zero]

theorem occurrences_le_cons (c : Char) (rest : List Char) :
    occurrences name rest ≤ occurrences name (c :: rest) := Nat.le_add_right _ _

theorem occurrences_le_append (opening rest : List Char) :
    occurrences name rest ≤ occurrences name (opening ++ rest) := by
  induction opening with
  | nil => exact Nat.le_refl _
  | cons c opening ih => exact Nat.le_trans ih (occurrences_le_cons c _)

theorem occurrences_append {opening : List Char} (unopened : '\x7b' ∉ opening)
    (rest : List Char) : occurrences name (opening ++ rest) = occurrences name rest := by
  induction opening with
  | nil => rfl
  | cons c opening ih =>
    obtain ⟨other, unopened⟩ := List.ne_and_not_mem_of_not_mem_cons unopened
    rw [List.cons_append, occurrences_cons (PathParam.not_placeholder_prefix_cons other _ _),
      ih unopened]

theorem occurrences_placeholder (plain : IsPlain name) (rest : List Char) :
    occurrences name (placeholder name ++ rest) = occurrences name rest + 1 := by
  have here : placeholder name <+: placeholder name ++ rest := List.prefix_append _ rest
  rw [placeholder, List.cons_append] at here ⊢
  rw [occurrences_cons_of_begins here,
    occurrences_append (PathParam.unopened_of_isPlain plain)]

theorem occurrences_placeholder_of_ne {other : List Char} (plain : IsPlain name)
    (plainOther : IsPlain other) (differs : name ≠ other) (rest : List Char) :
    occurrences name (placeholder other ++ rest) = occurrences name rest := by
  have absent := mt (PathParam.placeholder_prefix_iff plain plainOther rest).1 differs
  rw [placeholder, placeholder, List.cons_append] at absent
  rw [placeholder, List.cons_append, occurrences_cons absent,
    occurrences_append (PathParam.unopened_of_isPlain plainOther)]

end Occurrences

/-- A text is read from the left: it begins with the placeholder of one of the parameters, or with a
character at which none begins. -/
theorem PathParam.readFromLeft (params : List PathParam) {motive : List Char → Prop}
    (nil : motive [])
    (hole : ∀ param ∈ params, ∀ rest, motive rest →
      motive (placeholder param.name.toList ++ rest))
    (char : ∀ c rest, (∀ param ∈ params, ¬placeholder param.name.toList <+: c :: rest) →
      motive rest → motive (c :: rest))
    (text : List Char) : motive text := by
  cases text with
  | nil => exact nil
  | cons c rest =>
    by_cases opens : ∃ param ∈ params, placeholder param.name.toList <+: c :: rest
    · obtain ⟨param, member, after, split⟩ := opens
      have shorter : after.length ≤ rest.length := by
        refine Nat.le_of_lt_succ (?_ : after.length < (c :: rest).length)
        rw [← split, List.length_append]
        exact Nat.lt_add_of_pos_left (Nat.succ_pos _)
      rw [← split]
      exact hole param member after (readFromLeft params nil hole char after)
    · have none : ∀ param ∈ params, ¬placeholder param.name.toList <+: c :: rest :=
        fun param member here => opens ⟨param, member, here⟩
      exact char c rest none (readFromLeft params nil hole char rest)
termination_by text.length

/-! ## Texts with gaps -/

/-- A text in which some places are gaps. -/
abbrev Gapped := List (Option Char)

namespace Gapped

open PathParam (placeholder)

/-- The text with the same patch in every gap. -/
def close (gapped : Gapped) (patch : List Char) : List Char :=
  gapped.flatMap fun place => place.elim patch fun c => [c]

variable {name : List Char} {gapped : Gapped}

theorem close_gap (gapped : Gapped) (patch : List Char) :
    close (none :: gapped) patch = patch ++ gapped.close patch := rfl

theorem close_char (c : Char) (gapped : Gapped) (patch : List Char) :
    close (some c :: gapped) patch = c :: gapped.close patch := rfl

theorem close_append_map (text : List Char) (gapped : Gapped) (patch : List Char) :
    close (text.map some ++ gapped) patch = text ++ gapped.close patch := by
  induction text with
  | nil => rfl
  | cons c text ih => rw [List.map_cons, List.cons_append, close_char, ih, List.cons_append]

theorem length_close (gapped : Gapped) (patch : List Char) :
    (gapped.close patch).length =
      (gapped.close []).length + gapped.count none * patch.length := by
  induction gapped with
  | nil => simp [close]
  | cons place gapped ih =>
    cases place with
    | none =>
      rw [close_gap, close_gap, List.length_append, ih, List.count_cons_self, List.nil_append,
        Nat.add_mul, Nat.one_mul]
      omega
    | some c =>
      rw [close_char, close_char, List.length_cons, List.length_cons, ih,
        List.count_cons_of_ne (by simp)]
      omega

/-- What opens no placeholder does not come from a gap that is closed by one, so it is there
whatever the gaps are closed by. -/
theorem prefix_close {start : List Char} (unopened : '\x7b' ∉ start) (patch : List Char)
    (here : start <+: gapped.close (placeholder name)) : start <+: gapped.close patch := by
  induction start generalizing gapped with
  | nil => exact List.nil_prefix
  | cons c start ih =>
    obtain ⟨other, unopened⟩ := List.ne_and_not_mem_of_not_mem_cons unopened
    cases gapped with
    | nil => exact absurd (List.prefix_nil.1 here) (List.cons_ne_nil c start)
    | cons place gapped =>
      cases place with
      | none => exact absurd (List.cons_prefix_cons.1 here).1.symm other
      | some d =>
        obtain ⟨same, follows⟩ := List.cons_prefix_cons.1 here
        exact List.cons_prefix_cons.2 ⟨same, ih unopened follows⟩

/-- A placeholder that begins outside the gaps is there whatever the gaps are closed by. -/
theorem placeholder_prefix_close {other : List Char} (plain : IsPlain other) {c : Char}
    (here : placeholder other <+: close (some c :: gapped) (placeholder name))
    (patch : List Char) : placeholder other <+: close (some c :: gapped) patch := by
  obtain ⟨opens, here⟩ := List.cons_prefix_cons.1 here
  exact List.cons_prefix_cons.2
    ⟨opens, prefix_close (PathParam.unopened_of_isPlain plain) patch here⟩

theorem count_le_occurrences (plain : IsPlain name) (gapped : Gapped) :
    gapped.count none ≤ occurrences name (gapped.close (placeholder name)) := by
  induction gapped with
  | nil => exact Nat.zero_le _
  | cons place gapped ih =>
    cases place with
    | none =>
      rw [close_gap, occurrences_placeholder plain, List.count_cons_self]
      exact Nat.succ_le_succ ih
    | some c =>
      rw [close_char, List.count_cons_of_ne (by simp)]
      exact Nat.le_trans ih (occurrences_le_cons c _)

/-- No placeholder is lost when another one is replaced. -/
theorem occurrences_close_le {other : List Char} (plain : IsPlain name) (plainOther : IsPlain other)
    (differs : other ≠ name) (gapped : Gapped) (patch : List Char) :
    occurrences other (gapped.close (placeholder name)) ≤
      occurrences other (gapped.close patch) := by
  induction gapped with
  | nil => exact Nat.le_refl _
  | cons place gapped ih =>
    cases place with
    | none =>
      rw [close_gap, close_gap, occurrences_placeholder_of_ne plainOther plain differs]
      exact Nat.le_trans ih (occurrences_le_append patch _)
    | some c =>
      by_cases here : placeholder other <+: close (some c :: gapped) (placeholder name)
      · have still := placeholder_prefix_close plainOther here patch
        rw [close_char] at here still ⊢
        rw [close_char, occurrences_cons_of_begins here, occurrences_cons_of_begins still]
        exact Nat.succ_le_succ ih
      · rw [close_char] at here ⊢
        rw [close_char, occurrences_cons here]
        exact Nat.le_trans ih (occurrences_le_cons c _)

/-! ### Filling the gaps -/

theorem length_fill (param : PathParam) (plain : IsPlain param.name.toList) (path : List Char) :
    (PathParam.fill path param).length +
        occurrences param.name.toList path * (placeholder param.name.toList).length =
      path.length + occurrences param.name.toList path * param.value.toList.length := by
  induction path using PathParam.readFromLeft [param] with
  | nil => rw [PathParam.fill_nil, occurrences, Nat.zero_mul, Nat.zero_mul]
  | hole other member rest ih =>
    cases List.mem_singleton.1 member
    rw [PathParam.fill_placeholder, occurrences_placeholder plain, List.length_append,
      List.length_append, Nat.add_mul, Nat.add_mul, Nat.one_mul, Nat.one_mul]
    omega
  | char c rest none ih =>
    have absent := none param (List.mem_singleton_self param)
    rw [PathParam.fill_cons absent, occurrences_cons absent, List.length_cons, List.length_cons]
    omega

theorem fill_of_self {param : PathParam}
    (self : param.value.toList = placeholder param.name.toList) (path : List Char) :
    PathParam.fill path param = path := by
  induction path using PathParam.readFromLeft [param] with
  | nil => exact PathParam.fill_nil param
  | hole other member rest ih =>
    cases List.mem_singleton.1 member
    rw [PathParam.fill_placeholder, self, ih]
  | char c rest none ih =>
    rw [PathParam.fill_cons (none param (List.mem_singleton_self param)), ih]

variable (param : PathParam) (plain : IsPlain param.name.toList)

include plain

/-- Where its placeholder stands nowhere else, a parameter fills exactly the gaps. -/
theorem fill_close_of_count
    (only : occurrences param.name.toList (gapped.close (placeholder param.name.toList)) =
      gapped.count none) :
    PathParam.fill (gapped.close (placeholder param.name.toList)) param =
      gapped.close param.value.toList := by
  induction gapped with
  | nil => exact PathParam.fill_nil param
  | cons place gapped ih =>
    cases place with
    | none =>
      rw [close_gap, occurrences_placeholder plain, List.count_cons_self] at only
      rw [close_gap, close_gap, PathParam.fill_placeholder, ih (Nat.succ.inj only)]
    | some c =>
      have least := count_le_occurrences plain gapped
      rw [close_char, List.count_cons_of_ne (by simp)] at only
      by_cases here : placeholder param.name.toList <+:
          c :: close gapped (placeholder param.name.toList)
      · rw [occurrences_cons_of_begins here] at only
        omega
      · rw [occurrences_cons here] at only
        rw [close_char, close_char, PathParam.fill_cons here, ih only]

/-- A value that is as long as the placeholder, and differs from it, shows wherever it is filled
in. -/
theorem count_of_fill_close (sameLength :
      param.value.toList.length = (placeholder param.name.toList).length)
    (other : param.value.toList ≠ placeholder param.name.toList)
    (exact : PathParam.fill (gapped.close (placeholder param.name.toList)) param =
      gapped.close param.value.toList) :
    occurrences param.name.toList (gapped.close (placeholder param.name.toList)) =
      gapped.count none := by
  induction gapped with
  | nil => rfl
  | cons place gapped ih =>
    cases place with
    | none =>
      rw [close_gap, close_gap, PathParam.fill_placeholder, List.append_cancel_left_eq] at exact
      rw [close_gap, occurrences_placeholder plain, List.count_cons_self, ih exact]
    | some c =>
      by_cases here : placeholder param.name.toList <+:
          close (some c :: gapped) (placeholder param.name.toList)
      · -- The placeholder is still there after the gaps have been closed by the value.
        have still := placeholder_prefix_close plain here param.value.toList
        obtain ⟨rest, split⟩ := here
        rw [← exact, ← split, PathParam.fill_placeholder] at still
        have same := List.prefix_of_prefix_length_le still (List.prefix_append _ _)
          (Nat.le_of_eq sameLength.symm)
        exact absurd (same.eq_of_length sameLength.symm).symm other
      · rw [close_char] at here exact ⊢
        rw [close_char, PathParam.fill_cons here, List.cons.injEq] at exact
        rw [occurrences_cons here, List.count_cons_of_ne (by simp), ih exact.2]

/-- A parameter that is filled into a text fills exactly the gaps if its placeholder stands nowhere
else, or if it stands for itself. -/
theorem fill_close_iff (gapped : Gapped) :
    PathParam.fill (gapped.close (placeholder param.name.toList)) param =
        gapped.close param.value.toList ↔
      param.value.toList = placeholder param.name.toList ∨
        occurrences param.name.toList (gapped.close (placeholder param.name.toList)) =
          gapped.count none := by
  constructor
  · intro exact
    by_cases self : param.value.toList = placeholder param.name.toList
    · exact .inl self
    · refine .inr ?_
      by_cases sameLength : param.value.toList.length = (placeholder param.name.toList).length
      · exact count_of_fill_close param plain sameLength self exact
      · -- Each place that is filled makes the path longer, or each makes it shorter.
        have filled := length_fill param plain (gapped.close (placeholder param.name.toList))
        have closed := length_close gapped param.value.toList
        have opened := length_close gapped (placeholder param.name.toList)
        obtain ⟨extra, more⟩ := Nat.exists_eq_add_of_le (count_le_occurrences plain gapped)
        rw [exact, closed, opened, more, Nat.add_mul, Nat.add_mul] at filled
        have even : extra * (placeholder param.name.toList).length =
            extra * param.value.toList.length := by omega
        rcases Nat.eq_zero_or_pos extra with none | some
        · rw [more, none, Nat.add_zero]
        · exact absurd (Nat.eq_of_mul_eq_mul_left some even).symm sameLength
  · rintro (self | only)
    · rw [fill_of_self self, self]
    · exact fill_close_of_count param plain only

end Gapped

/-! ## Values as they are -/

namespace PathParam

/-- Names without braces, each given once. -/
structure AreNamed (params : List PathParam) : Prop where
  plain : ∀ param ∈ params, IsPlain param.name.toList
  distinct : (params.map PathParam.name).Nodup

instance (params : List PathParam) : Decidable (AreNamed params) :=
  decidable_of_iff
    ((∀ param ∈ params, IsPlain param.name.toList) ∧ (params.map PathParam.name).Nodup)
    ⟨fun both => ⟨both.1, both.2⟩, fun named => ⟨named.plain, named.distinct⟩⟩

variable {params chosen : List PathParam} {param : PathParam}

theorem AreNamed.of_subperm (named : AreNamed params) (some : chosen.Subperm params) :
    AreNamed chosen where
  plain param member := named.plain param (some.subset member)
  distinct := by
    obtain ⟨ordered, same, sublist⟩ := some
    exact (same.map name).nodup_iff.1 (named.distinct.sublist (sublist.map name))

theorem AreNamed.eq_of_name_eq (named : AreNamed params) {other : PathParam}
    (member : param ∈ params) (also : other ∈ params)
    (same : param.name.toList = other.name.toList) : param = other :=
  List.inj_on_of_nodup_map named.distinct member also (String.toList_inj.1 same)

theorem AreNamed.name_ne (named : AreNamed (params ++ [param])) {other : PathParam}
    (earlier : other ∈ params) : other.name.toList ≠ param.name.toList := by
  have distinct := named.distinct
  rw [List.map_append, List.nodup_append] at distinct
  exact fun same => distinct.2.2 other.name (List.mem_map_of_mem earlier) param.name
    (List.mem_map_of_mem (List.mem_singleton_self param)) (String.toList_inj.1 same)

/-- Whether a text begins with the placeholder of a parameter. -/
def isNext (text : List Char) (param : PathParam) : Bool :=
  (placeholder param.name.toList).isPrefixOf text

theorem isNext_iff {text : List Char} :
    param.isNext text = true ↔ placeholder param.name.toList <+: text :=
  List.isPrefixOf_iff_prefix

/-- At one place of a text no two placeholders begin. -/
theorem find?_isNext_eq_some_iff (named : AreNamed params) {text : List Char} :
    params.find? (isNext text) = some param ↔
      param ∈ params ∧ placeholder param.name.toList <+: text := by
  constructor
  · intro found
    exact ⟨List.mem_of_find?_eq_some found, isNext_iff.1 (List.find?_some found)⟩
  · rintro ⟨member, rest, rfl⟩
    have here : param.isNext (placeholder param.name.toList ++ rest) = true :=
      isNext_iff.2 (List.prefix_append _ rest)
    cases found : params.find? (isNext (placeholder param.name.toList ++ rest)) with
    | none => exact absurd here (List.find?_eq_none.1 found param member)
    | some other =>
      have also := List.mem_of_find?_eq_some found
      have same := (placeholder_prefix_iff (named.plain other also) (named.plain param member)
        rest).1 (isNext_iff.1 (List.find?_some found))
      rw [named.eq_of_name_eq also member same]

end PathParam

namespace Route

open PathParam (placeholder isNext AreNamed)

/-- Fills in all parameters in one pass. What has been put in is not looked at again. -/
def fillAll (params : List PathParam) : List Char → List Char
  | [] => []
  | c :: rest =>
    match params.find? (isNext (c :: rest)) with
    | some param =>
      param.value.toList ++ fillAll params (rest.drop (param.name.toList.length + 1))
    | none => c :: fillAll params rest
termination_by text => text.length
decreasing_by all_goals simp only [List.length_cons, List.length_drop]; omega

/-- The template with every placeholder replaced by the value as it is. -/
def verbatim (template : String) (params : List PathParam) : String :=
  String.ofList (fillAll params template.toList)

variable {params : List PathParam}

theorem fillAll_nil (params : List PathParam) : fillAll params [] = [] := by rw [fillAll]

theorem fillAll_placeholder (named : AreNamed params) {param : PathParam}
    (member : param ∈ params) (rest : List Char) :
    fillAll params (placeholder param.name.toList ++ rest) =
      param.value.toList ++ fillAll params rest := by
  have found := (PathParam.find?_isNext_eq_some_iff named).2
    ⟨member, List.prefix_append (placeholder param.name.toList) rest⟩
  rw [placeholder, List.cons_append] at found ⊢
  have after : (param.name.toList ++ ['\x7d'] ++ rest).drop (param.name.toList.length + 1) =
      rest := List.drop_left' (by simp)
  rw [fillAll, found]
  simp only [after]

theorem fillAll_cons {c : Char} {rest : List Char}
    (absent : ∀ param ∈ params, ¬placeholder param.name.toList <+: c :: rest) :
    fillAll params (c :: rest) = c :: fillAll params rest := by
  have none : params.find? (isNext (c :: rest)) = none :=
    List.find?_eq_none.2 fun param member here => absent param member (PathParam.isNext_iff.1 here)
  rw [fillAll, none]

theorem fillAll_append {opening : List Char} (unopened : '\x7b' ∉ opening) (rest : List Char) :
    fillAll params (opening ++ rest) = opening ++ fillAll params rest := by
  induction opening with
  | nil => rfl
  | cons c opening ih =>
    obtain ⟨other, unopened⟩ := List.ne_and_not_mem_of_not_mem_cons unopened
    have absent : ∀ param ∈ params, ¬placeholder param.name.toList <+: c :: (opening ++ rest) :=
      fun param _ => PathParam.not_placeholder_prefix_cons other _ _
    rw [List.cons_append, fillAll_cons absent, ih unopened, List.cons_append]

theorem fillAll_of_none (text : List Char) : fillAll [] text = text := by
  induction text with
  | nil => exact fillAll_nil []
  | cons c rest ih => rw [fillAll_cons fun param member => absurd member List.not_mem_nil, ih]

/-- A placeholder that no parameter names stays. -/
theorem fillAll_placeholder_of_unnamed (named : AreNamed params) {name : List Char}
    (plain : IsPlain name) (unnamed : ∀ param ∈ params, param.name.toList ≠ name)
    (rest : List Char) :
    fillAll params (placeholder name ++ rest) = placeholder name ++ fillAll params rest := by
  have absent : ∀ param ∈ params,
      ¬placeholder param.name.toList <+: placeholder name ++ rest := fun param member here =>
    unnamed param member
      ((PathParam.placeholder_prefix_iff (named.plain param member) plain rest).1 here)
  calc
    _ = '\x7b' :: fillAll params (name ++ ['\x7d'] ++ rest) := fillAll_cons absent
    _ = _ := by rw [fillAll_append (PathParam.unopened_of_isPlain plain)]; rfl

/-- The order of the parameters does not matter to one pass. -/
theorem fillAll_of_perm (named : AreNamed params) {other : List PathParam}
    (same : other.Perm params) (text : List Char) : fillAll other text = fillAll params text := by
  have also := named.of_subperm same.subperm
  induction text using PathParam.readFromLeft params with
  | nil => rw [fillAll_nil, fillAll_nil]
  | hole param member rest ih =>
    rw [fillAll_placeholder named member, fillAll_placeholder also (same.mem_iff.2 member), ih]
  | char c rest none ih =>
    rw [fillAll_cons none, fillAll_cons fun param member => none param (same.mem_iff.1 member), ih]

/-- With one more parameter the path is the one without it, with its placeholders filled as far as
they are the template's own. -/
theorem exists_gapped {param : PathParam} (named : AreNamed (params ++ [param]))
    (text : List Char) :
    ∃ gapped : Gapped,
      fillAll params text = gapped.close (placeholder param.name.toList) ∧
      fillAll (params ++ [param]) text = gapped.close param.value.toList ∧
      occurrences param.name.toList text = gapped.count none := by
  have last : param ∈ params ++ [param] := List.mem_append_right _ (List.mem_singleton_self param)
  have former := named.of_subperm (List.sublist_append_left params [param]).subperm
  have plain := named.plain param last
  have unnamed : ∀ other ∈ params, other.name.toList ≠ param.name.toList :=
    fun other earlier => named.name_ne earlier
  induction text using PathParam.readFromLeft (params ++ [param]) with
  | nil => exact ⟨[], fillAll_nil _, fillAll_nil _, rfl⟩
  | hole other member rest ih =>
    obtain ⟨gapped, without, all, own⟩ := ih
    rw [fillAll_placeholder named member, all]
    rcases List.mem_append.1 member with earlier | itself
    · have noGaps : (other.value.toList.map some).count none = 0 := List.count_eq_zero.2 (by simp)
      refine ⟨other.value.toList.map some ++ gapped, ?_, ?_, ?_⟩
      · rw [fillAll_placeholder former earlier, without, Gapped.close_append_map]
      · rw [Gapped.close_append_map]
      · rw [occurrences_placeholder_of_ne plain (former.plain other earlier)
          (unnamed other earlier).symm, own, List.count_append, noGaps, Nat.zero_add]
    · cases List.mem_singleton.1 itself
      refine ⟨none :: gapped, ?_, rfl, ?_⟩
      · rw [fillAll_placeholder_of_unnamed former plain unnamed, without, Gapped.close_gap]
      · rw [occurrences_placeholder plain, own, List.count_cons_self]
  | char c rest none ih =>
    obtain ⟨gapped, without, all, own⟩ := ih
    refine ⟨some c :: gapped, ?_, ?_, ?_⟩
    · rw [fillAll_cons fun other member => none other (List.mem_append_left _ member), without,
        Gapped.close_char]
    · rw [fillAll_cons none, all, Gapped.close_char]
    · rw [occurrences_cons (none param last), own, List.count_cons_of_ne (by simp)]

/-- The values that come into a path leave it the placeholders that the template has. -/
theorem occurrences_le_fillAll {param : PathParam} (named : AreNamed (params ++ [param]))
    (text : List Char) :
    occurrences param.name.toList text ≤ occurrences param.name.toList (fillAll params text) := by
  obtain ⟨gapped, without, -, own⟩ := exists_gapped named text
  rw [without, own]
  refine Gapped.count_le_occurrences (named.plain param ?_) gapped
  exact List.mem_append_right _ (List.mem_singleton_self param)

theorem occurrences_fillAll_append {name : List Char} (plain : IsPlain name)
    {others : List PathParam} (named : AreNamed (params ++ others))
    (unnamed : ∀ other ∈ others, name ≠ other.name.toList) (text : List Char) :
    occurrences name (fillAll params text) ≤
      occurrences name (fillAll (params ++ others) text) := by
  induction others generalizing params with
  | nil => exact Nat.le_of_eq (by rw [List.append_nil])
  | cons other others ih =>
    rw [List.append_cons] at named ⊢
    have before := named.of_subperm (List.sublist_append_left (params ++ [other]) others).subperm
    have plainOther := before.plain other (List.mem_append_right _ (List.mem_singleton_self other))
    obtain ⟨gapped, without, all, -⟩ := exists_gapped before text
    calc
      occurrences name (fillAll params text)
      _ = occurrences name (gapped.close (placeholder other.name.toList)) := by rw [without]
      _ ≤ occurrences name (gapped.close other.value.toList) :=
        Gapped.occurrences_close_le plainOther plain (unnamed other List.mem_cons_self) gapped _
      _ = occurrences name (fillAll (params ++ [other]) text) := by rw [all]
      _ ≤ _ := ih named fun another member => unnamed another (List.mem_cons_of_mem other member)

/-- With more parameters no placeholder of another one is lost, be it the template's own or one that
values have brought. -/
theorem occurrences_fillAll_mono {name : List Char} (plain : IsPlain name)
    (named : AreNamed params) (unnamed : ∀ param ∈ params, name ≠ param.name.toList)
    {chosen : List PathParam} (some : chosen.Subperm params) (text : List Char) :
    occurrences name (fillAll chosen text) ≤ occurrences name (fillAll params text) := by
  obtain ⟨ordered, same, sublist⟩ := some
  obtain ⟨others, all⟩ := sublist.exists_perm_append
  have also := named.of_subperm all.symm.subperm
  rw [fillAll_of_perm (named.of_subperm sublist.subperm) same.symm,
    fillAll_of_perm also all]
  exact occurrences_fillAll_append plain also (fun other member =>
    unnamed other (all.mem_iff.2 (List.mem_append_right ordered member))) text

/-- A parameter that is filled into a path with the values as they are leaves them so exactly if its
placeholder stands there no more often than in the template, or stands for itself. -/
theorem fill_fillAll_iff {param : PathParam} (named : AreNamed (params ++ [param]))
    (text : List Char) :
    PathParam.fill (fillAll params text) param = fillAll (params ++ [param]) text ↔
      param.value.toList = placeholder param.name.toList ∨
        occurrences param.name.toList (fillAll params text) =
          occurrences param.name.toList text := by
  obtain ⟨gapped, without, all, own⟩ := exists_gapped named text
  have plain := named.plain param (List.mem_append_right _ (List.mem_singleton_self param))
  rw [without, all, own]
  exact Gapped.fill_close_iff param plain gapped

/-- Whatever parameters are chosen, in whatever order, the path is the template with the values as
they are, exactly if no parameter's placeholder stands, among the values of the others, more often
than in the template, unless it stands for itself. With the values as they are the order of the
parameters does not matter. -/
theorem compile_eq_verbatim_iff (method : Http.Method) (template : String)
    {params : List PathParam} (named : AreNamed params) :
    ((∀ chosen, chosen.Subperm params →
        (compile method template chosen).path = verbatim template chosen) ↔
      ∀ param ∈ params, param.value.toList = placeholder param.name.toList ∨
        occurrences param.name.toList (verbatim template (params.erase param)).toList =
          occurrences param.name.toList template.toList) ∧
    ∀ chosen other, chosen.Subperm params → other.Perm chosen →
      verbatim template other = verbatim template chosen := by
  simp only [compile, verbatim, String.ofList_inj, String.toList_ofList]
  have others : ∀ param ∈ params, params.Perm (params.erase param ++ [param]) :=
    fun param member => (List.perm_cons_erase member).trans (List.perm_append_singleton _ _).symm
  refine ⟨⟨fun exact param member => ?_, fun clean chosen some => ?_⟩,
    fun chosen other some same => ?_⟩
  · have all := (others param member).symm.subperm
    have before := exact (params.erase param) (List.erase_subperm param params)
    have after := exact (params.erase param ++ [param]) all
    rw [List.foldl_concat, before] at after
    exact (fill_fillAll_iff (named.of_subperm all) _).1 after
  · induction chosen using List.reverseRecOn with
    | nil => exact (fillAll_of_none template.toList).symm
    | append_singleton chosen param ih =>
      have fewer := (List.sublist_append_left chosen [param]).subperm.trans some
      have first := (List.perm_append_singleton param chosen).symm.subperm.trans some
      have member : param ∈ params := first.subset List.mem_cons_self
      have without : chosen.Subperm (params.erase param) := by simpa using first.erase param
      have named' := named.of_subperm (others param member).symm.subperm
      rw [List.foldl_concat, ih fewer, fill_fillAll_iff (named.of_subperm some)]
      -- What the chosen ones bring, the others would bring as well.
      refine (clean param member).imp_right fun alone => Nat.le_antisymm ?_ ?_
      · rw [← alone]
        exact occurrences_fillAll_mono (named.plain param member)
          (named.of_subperm (List.erase_subperm param params))
          (fun other earlier => (named'.name_ne earlier).symm) without template.toList
      · exact occurrences_le_fillAll (named.of_subperm some) template.toList
  · rw [fillAll_of_perm (named.of_subperm some) same]

/-! ### Two values with braces -/

/-- Two placeholders side by side. -/
def twoHoles : String := "\x7ba\x7d/\x7bb\x7d"

/-- The value for the first hole is the placeholder of the second. -/
def bringing : List PathParam := [⟨"a", "\x7bb\x7d"⟩, ⟨"b", "x"⟩]

/-- The value that the first parameter puts in is filled by the second one, and stays if the second
one comes first. -/
theorem compile_ne_verbatim :
    AreNamed bringing ∧
    (compile .get twoHoles bringing).path = "x/x" ∧
    verbatim twoHoles bringing = "\x7bb\x7d/x" ∧
    (compile .get twoHoles bringing.reverse).path = "\x7bb\x7d/x" := by
  refine ⟨by decide, ?_, ?_, ?_⟩ <;> cbv

/-- The value for the first hole is a placeholder of nobody's, and the second value is its own. -/
def harmless : List PathParam := [⟨"a", "\x7bc\x7d"⟩, ⟨"b", "\x7bb\x7d"⟩]

/-- Braces in a value do no harm while they are nobody else's placeholder. -/
theorem compile_of_harmless :
    AreNamed harmless ∧
    (compile .get twoHoles harmless).path = "\x7bc\x7d/\x7bb\x7d" ∧
    (compile .get twoHoles harmless.reverse).path = "\x7bc\x7d/\x7bb\x7d" := by
  have named : AreNamed harmless := by decide
  have clean : ∀ param ∈ harmless, param.value.toList = placeholder param.name.toList ∨
      occurrences param.name.toList (verbatim twoHoles (harmless.erase param)).toList =
        occurrences param.name.toList twoHoles.toList := by decide +kernel
  have exact := (compile_eq_verbatim_iff .get twoHoles named).1.2 clean
  have asTheyAre : verbatim twoHoles harmless = "\x7bc\x7d/\x7bb\x7d" := by cbv
  have reversed := (List.reverse_perm harmless).subperm
  refine ⟨named, (exact harmless (List.Subperm.refl _)).trans asTheyAre, ?_⟩
  rw [exact harmless.reverse reversed, (compile_eq_verbatim_iff .get twoHoles named).2 harmless
    harmless.reverse (List.Subperm.refl _) (List.reverse_perm harmless), asTheyAre]

end Route

end QuotaGate
