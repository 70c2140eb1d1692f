import Mathlib.Data.List.Nodup
import QuotaGate.Failure
import QuotaGate.Proofs.Text.Runs
import QuotaGate.Quota.Registry

/-!
# What the text of a route tells

The text of a route is its method, a blank and its template. A template may hold blanks, so such a
text may hold many, and nothing in it marks the one at which it was put together. But a method is a
token, and no token holds a blank: the method is all that stands before the first one. So the text
tells the route, and so does whatever carries the text along: the message of a failure on a route,
and a list of the known routes by their texts.

Results:
1. `RouteKey.text_eq_iff`: two routes of one text are one route.
2. `Failure.message?_eq_timedOut_iff`, `Failure.message?_eq_retriesExhausted_iff`: the message of a
   failure on a route is the message of no other failure.
3. `Registry.nodup_listing`, `Registry.lookup_listing`: in a list by texts no two routes meet.
4. `RouteKey.text_tells_route`: all of it in one statement.
-/

namespace QuotaGate

/-! ## The text of a route -/

namespace RouteKey

open Http (isTokenChar)

theorem isTokenChar_of_mem_method (method : Http.Method) :
    ∀ c ∈ method.text.toList, isTokenChar c = true := by
  have valid := method.isToken_text
  rw [Http.isToken, Bool.and_eq_true] at valid
  exact List.all_eq_true.1 valid.2

/-- A blank ends a token. -/
theorem stops_blank (template : List Char) : Stops isTokenChar (' ' :: template) :=
  stops_cons_iff.2 (by decide)

theorem toList_text (route : RouteKey) :
    route.text.toList = route.method.text.toList ++ ' ' :: route.template.toList := by
  simp [text, String.toList_append]

/-- The first blank of the text is the one before the template. -/
theorem text_eq_iff {route other : RouteKey} : route.text = other.text ↔ route = other := by
  constructor
  · intro same
    have chars := congrArg String.toList same
    rw [toList_text, toList_text] at chars
    obtain ⟨methods, blankTemplates⟩ :=
      run_inj (isTokenChar_of_mem_method route.method) (stops_blank route.template.toList)
        (isTokenChar_of_mem_method other.method) (stops_blank other.template.toList) chars
    obtain ⟨⟨method, _⟩, template⟩ := route
    obtain ⟨⟨otherMethod, _⟩, otherTemplate⟩ := other
    cases String.toList_inj.1 methods
    cases String.toList_inj.1 (List.cons.inj blankTemplates).2
    rfl
  · rintro rfl
    rfl

/-- If a method could hold a blank, a text could be put together at either of two blanks. -/
example : "A" ++ " " ++ "B C" = "A B" ++ " " ++ "C" ∧ Http.isToken "A B" = false := by decide

end RouteKey

/-! ## Messages -/

namespace Failure

/-- The first two letters of the message, which no other cause has. -/
def initials : Failure → List Char
  | settings _ => ['C', 'o']
  | retriesExhausted .. => ['R', 'a']
  | timedOut _ => ['R', 'e']
  | transport _ => ['T', 'r']
  | refused .. => ['H', 'T']
  | undecodable | unreadable => []

theorem take_two_of_message? {failure : Failure} {message : String}
    (worded : failure.message? = some message) : message.toList.take 2 = failure.initials := by
  cases failure with
  | settings fault =>
    obtain ⟨reason, -, rfl⟩ := Option.map_eq_some_iff.1 worded
    simp [initials, String.toList_append]
  | retriesExhausted route attempts | timedOut route | transport reason | refused status body =>
    cases worded
    simp [initials, String.toList_append]
  | undecodable | unreadable => cases worded

theorem initials_eq {failure other : Failure} {message : String}
    (worded : other.message? = some message) (same : failure.message? = other.message?) :
    failure.initials = other.initials :=
  (take_two_of_message? (same.trans worded)).symm.trans (take_two_of_message? worded)

theorem message?_eq_timedOut_iff (failure : Failure) (route : RouteKey) :
    failure.message? = (timedOut route).message? ↔ failure = timedOut route := by
  constructor
  · intro same
    have begins : failure.initials = (timedOut route).initials := initials_eq rfl same
    cases failure with
    | timedOut other =>
      have texts := Option.some.inj same
      rw [String.append_left_inj, String.append_right_inj, RouteKey.text_eq_iff] at texts
      exact congrArg timedOut texts
    | settings | retriesExhausted | transport | refused | undecodable | unreadable =>
      simp [initials] at begins
  · rintro rfl
    rfl

theorem isDigit_of_mem_toString (count : Nat) :
    ∀ c ∈ (toString count).toList, c.isDigit = true := by
  intro c member
  rw [Nat.toString_eq_repr, Nat.toList_repr] at member
  exact Nat.isDigit_of_mem_toDigits (by decide) (by decide) member

/-- What stands before the count may itself end like a message. But the count is all digits at the
end, and the blank before them is no digit. -/
theorem counted_inj {before other : String} {count otherCount : Nat}
    (same : before ++ " after " ++ toString count = other ++ " after " ++ toString otherCount) :
    before = other ∧ count = otherCount := by
  have stops (text : String) : Stops Char.isDigit (text ++ " after ").toList.reverse := by
    rw [String.toList_append, List.reverse_append]
    exact stops_cons_iff.2 (by decide)
  have chars := congrArg String.toList same
  rw [String.toList_append, @String.toList_append (other ++ " after ")] at chars
  obtain ⟨texts, counts⟩ := run_inj_at_end (isDigit_of_mem_toString count) (stops before)
    (isDigit_of_mem_toString otherCount) (stops other) chars
  rw [String.toList_inj, String.append_left_inj] at texts
  rw [Nat.toString_eq_repr, Nat.toString_eq_repr, Nat.toList_repr, Nat.toList_repr] at counts
  refine ⟨texts, ?_⟩
  rw [← @Nat.ofDigitChars_toDigits 10 count (by decide) (by decide), counts,
    Nat.ofDigitChars_toDigits (by decide) (by decide)]

theorem message?_eq_retriesExhausted_iff (failure : Failure) (route : RouteKey) (attempts : Nat) :
    failure.message? = (retriesExhausted route attempts).message? ↔
      failure = retriesExhausted route attempts := by
  constructor
  · intro same
    have begins : failure.initials = (retriesExhausted route attempts).initials :=
      initials_eq rfl same
    cases failure with
    | retriesExhausted other count =>
      have texts := Option.some.inj same
      rw [String.append_left_inj] at texts
      obtain ⟨routes, rfl⟩ := counted_inj texts
      rw [String.append_right_inj, RouteKey.text_eq_iff] at routes
      rw [routes]
    | settings | timedOut | transport | refused | undecodable | unreadable =>
      simp [initials] at begins
  · rintro rfl
    rfl

end Failure

/-! ## Known routes by their texts -/

namespace Registry

/-- The known routes by their texts, each with the name of its bucket. -/
def listing (registry : Registry) : List (String × String) :=
  registry.routes.entries.map fun entry => (entry.1.text, entry.2)

/-- As many texts as routes are listed. -/
theorem nodup_listing (registry : Registry) : (registry.listing.map Prod.fst).Nodup := by
  have texts : registry.listing.map Prod.fst =
      (registry.routes.entries.map Prod.fst).map RouteKey.text := by
    simp [listing, Function.comp_def]
  rw [texts]
  exact registry.routes.nodup_keys.map fun _ _ same => RouteKey.text_eq_iff.1 same

/-- What is listed under the text of a route is what is known of the route. -/
theorem lookup_listing (registry : Registry) (route : RouteKey) :
    registry.listing.lookup route.text = registry.bucketId? route := by
  unfold listing bucketId? Table.get?
  induction registry.routes.entries with
  | nil => rfl
  | cons entry rest ih =>
    rw [List.map_cons, Table.lookup_cons, ih]
    simp only [RouteKey.text_eq_iff]
    exact (Table.lookup_cons route entry.1 entry.2 rest).symm

end Registry

/-- Two routes of one text are one route, and a route prints as its text. No failure but the very
failure on the route has the message of a failure on it, and a list of the known routes by their
texts has no text twice and under the text of a route what is known of that route. -/
theorem RouteKey.text_tells_route (route other : RouteKey) :
    (route.text = other.text ↔ route = other) ∧
    toString route = route.text ∧
    (∀ failure : Failure,
      failure.message? = (Failure.timedOut route).message? ↔ failure = .timedOut route) ∧
    (∀ (failure : Failure) (attempts : Nat),
      failure.message? = (Failure.retriesExhausted route attempts).message? ↔
        failure = .retriesExhausted route attempts) ∧
    ∀ registry : Registry, (registry.listing.map Prod.fst).Nodup ∧
      registry.listing.lookup route.text = registry.bucketId? route :=
  ⟨text_eq_iff, rfl, fun failure => failure.message?_eq_timedOut_iff route,
    fun failure attempts => failure.message?_eq_retriesExhausted_iff route attempts,
    fun registry => ⟨registry.nodup_listing, registry.lookup_listing route⟩⟩

end QuotaGate
