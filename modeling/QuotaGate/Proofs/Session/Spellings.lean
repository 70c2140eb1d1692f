import Mathlib
import QuotaGate.Proofs.Admission.Unrelated
import QuotaGate.Proofs.Client.Address
import QuotaGate.Proofs.Session.Renaming

/-!
# Two spellings of one endpoint

A template with more slashes in front asks the same server for the same thing, but it is another
route: requests are counted by the template as it is given. So what a server says about one spelling
says nothing about the other one, until a report on that names the same bucket.

Both are held back alike as far as they are counted alike. An admission looks at the bucket of its
route once, and only there does it matter which of the two routes it is on; and if both are counted
in one bucket, or neither in any, a session in which the two have changed names cannot be told from
the session itself.

Results:
1. `other_spelling_sent_at_once`: a bucket that is exhausted under one spelling does not hold the
   other one back.
2. `Timeline.comes_iff_iff_wakeAt?_eq`: when both spellings are held back for the same time.
3. `spellings_alike`: what is true of two spellings.
-/

namespace QuotaGate

/-! ## Admissions on two routes -/

theorem Registry.wakeAt?_eq_of_getD_eq {registry : Registry} {route other : RouteKey}
    {now : Instant} (same : (registry.wakeAt? other now).getD now =
      (registry.wakeAt? route now).getD now) :
    registry.wakeAt? other now = registry.wakeAt? route now := by
  cases sleeps : registry.wakeAt? route now with
  | none =>
    cases sleepsToo : registry.wakeAt? other now with
    | none => rfl
    | some wake =>
      rw [sleeps, sleepsToo] at same
      exact absurd same (Nat.ne_of_gt (Registry.lt_of_wakeAt? sleepsToo))
  | some wake =>
    cases sleepsToo : registry.wakeAt? other now with
    | none =>
      rw [sleeps, sleepsToo] at same
      exact absurd same (Nat.ne_of_lt (Registry.lt_of_wakeAt? sleeps))
    | some wakeToo =>
      rw [sleeps, sleepsToo] at same
      exact congrArg some same

theorem Registry.wakeAt?_of_uncounted {registry : Registry} {route : RouteKey}
    (uncounted : registry.bucketId? route = none) (now : Instant) :
    registry.wakeAt? route now = none := by
  have unknown : registry.bucketOf? route = none := by
    rw [bucketOf?, uncounted, Option.bind_none]
  have waits : registry.waitAt route now = 0 := by
    rw [waitAt, unknown]
  exact if_pos waits

namespace Timeline

variable (timeline : Timeline) (route other : RouteKey) (start : Instant)

/-- Until the look at the bucket the route does not matter. -/
theorem clears_iff_clears {look : Instant} :
    timeline.Clears route start look ↔ timeline.Clears other start look :=
  ⟨Clears.congr_lockout (fun _ => rfl) other, Clears.congr_lockout (fun _ => rfl) route⟩

/-- Requests on two routes are held back for the same time exactly if, at the look at the bucket,
the two routes have the same wait. -/
theorem comes_iff_iff_wakeAt?_eq :
    (∀ stop, timeline.Comes other start stop ↔ timeline.Comes route start stop) ↔
      ∀ look, timeline.Clears route start look →
        (timeline look).registry.wakeAt? other look =
          (timeline look).registry.wakeAt? route look := by
  constructor
  · intro alike look cleared
    have clearedToo := (clears_iff_clears timeline route other start).1 cleared
    -- After the one look nothing but the wait found there decides when the admission ends.
    have stops := cleared.comes_iff.1 ((alike _).1 (clearedToo.comes_iff.2 rfl))
    exact Registry.wakeAt?_eq_of_getD_eq stops
  · intro same stop
    rw [comes_iff, comes_iff]
    refine exists_congr fun look => ?_
    rw [clears_iff_clears timeline other route]
    refine and_congr_right fun cleared => ?_
    rw [same look cleared]

/-- A route that no complete report was about is held back by the lockout alone. -/
theorem comes_iff_clears_of_unreported {origin : Instant} {fallback : Duration}
    {seen : Instant → Gate.History} (unreported : ∀ now, (seen now).bucketsOf route = [])
    {stop : Instant} :
    (ofHistories origin fallback seen).Comes route start stop ↔
      (ofHistories origin fallback seen).Clears route start stop := by
  have uncounted : ∀ look,
      (ofHistories origin fallback seen look).registry.bucketId? route = none := by
    intro look
    -- Only complete reports count a route in a bucket, and there are none on this one.
    have agrees := @Gate.agrees_replay origin fallback route _ (seen look)
      fun entry member id assigned => List.mem_filterMap.2 ⟨entry, member, assigned⟩
    refine Option.eq_none_iff_forall_not_mem.2 fun id counted => ?_
    have member : id ∈ (seen look).bucketsOf route := agrees.within id counted
    rw [unreported look] at member
    cases member
  have looks : ∀ look, ((ofHistories origin fallback seen look).registry.wakeAt? route look).getD
      look = look := by
    intro look
    rw [Registry.wakeAt?_of_uncounted (uncounted look), Option.getD_none]
  rw [comes_iff]
  simp only [looks]
  constructor
  · rintro ⟨look, cleared, rfl⟩
    exact cleared
  · intro cleared
    exact ⟨stop, cleared, rfl⟩

end Timeline

namespace Session

/-! ## A session with two names exchanged -/

/-- The route that an action is on. -/
def Action.route? : Action → Option RouteKey
  | .observe route _ _ | .record route _ | .acquire route _ | .tryAcquire route
  | .awaitBucket route | .send route _ _ _ => some route
  | .call _ route _ => some route.key
  | .sleep _ | .awaitLockout | .trigger _ | .prune _ | .clear | .spawnPruner .. | .shutdown => none

/-- An action on a route that keeps its name stays as it is. -/
theorem Action.mirrors_self {names : RouteKey → RouteKey} {action : Action}
    (kept : ∀ route ∈ action.route?, names route = route) : action.Mirrors names action := by
  cases action with
  | sleep length => exact .sleep length
  | observe route report verdict =>
    have renamed : Action.Mirrors names _ _ := .observe route report verdict
    rwa [kept route rfl] at renamed
  | record route report =>
    have renamed : Action.Mirrors names _ _ := .record route report
    rwa [kept route rfl] at renamed
  | acquire route longest =>
    have renamed : Action.Mirrors names _ _ := .acquire route longest
    rwa [kept route rfl] at renamed
  | tryAcquire route =>
    have renamed : Action.Mirrors names _ _ := .tryAcquire route
    rwa [kept route rfl] at renamed
  | awaitLockout => exact .awaitLockout
  | awaitBucket route =>
    have renamed : Action.Mirrors names _ _ := .awaitBucket route
    rwa [kept route rfl] at renamed
  | trigger length => exact .trigger length
  | prune grace => exact .prune grace
  | clear => exact .clear
  | spawnPruner every grace => exact .spawnPruner every grace
  | send route request budget timeout =>
    have renamed : Action.Mirrors names _ _ := .send route request budget timeout
    rwa [kept route rfl] at renamed
  | call client route body => exact .call (kept route.key rfl).symm rfl
  | shutdown => exact .shutdown

/-- Routes that are counted in one bucket, or neither in any, can change names. -/
theorem mirrors_swap {session : Session} {route other : RouteKey}
    (alike : session.world.gate.registry.bucketId? other =
      session.world.gate.registry.bucketId? route) :
    session.Mirrors (Equiv.swap route other) session where
  now := rfl
  world := by
    refine ⟨⟨⟨⟨rfl, fun wanted => ?_⟩, rfl, rfl⟩, rfl⟩, rfl⟩
    rw [Equiv.swap_apply_def]
    split
    · next isRoute => rw [isRoute]; exact alike
    · split
      · next isOther => rw [isOther]; exact alike.symm
      · rfl

/-- The route of an endpoint whose template is given with so many slashes in front. -/
def spelling (method : Http.Method) (template : String) (count : Nat) : RouteKey :=
  ⟨method, Route.underSlashes count template⟩

theorem mirrors_ask (client : Client) (method : Http.Method) (template : String)
    (params : List PathParam) (body : Option Json.Value) (count other : Nat) :
    (Action.ask client method template params body count).Mirrors
      (Equiv.swap (spelling method template count) (spelling method template other))
      (.ask client method template params body other) := by
  refine .call (Equiv.swap_apply_left _ _).symm ?_
  rw [Client.requestOf_slashed, Client.requestOf_slashed]

theorem perform_ask_mirrors {session : Session} {method : Http.Method} {template : String}
    {count other : Nat}
    (alike : session.world.gate.registry.bucketId? (spelling method template other) =
      session.world.gate.registry.bucketId? (spelling method template count))
    {before after : List (Duration × Action)}
    (elsewhere : ∀ delayed ∈ before ++ after, ∀ route ∈ delayed.2.route?,
      route ≠ spelling method template count ∧ route ≠ spelling method template other)
    (client : Client) (params : List PathParam) (body : Option Json.Value) (delay : Duration) :
    let names := Equiv.swap (spelling method template count) (spelling method template other)
    let one := session.perform
      (before ++ (delay, .ask client method template params body count) :: after)
    let another := session.perform
      (before ++ (delay, .ask client method template params body other) :: after)
    another.1 = one.1.map (Prod.map (Result.rename names) id) ∧ one.2.Mirrors names another.2 := by
  intro names one another
  have kept : ∀ delayed ∈ before ++ after,
      delayed.1 = delayed.1 ∧ delayed.2.Mirrors names delayed.2 := by
    intro delayed member
    refine ⟨rfl, Action.mirrors_self fun route isRoute => ?_⟩
    obtain ⟨different, differentToo⟩ := elsewhere delayed member route isRoute
    exact Equiv.swap_apply_of_ne_of_ne different differentToo
  -- Before and after the request nothing is on either spelling, so the exchange changes nothing.
  refine mirrors_perform names.injective (mirrors_swap alike) (List.rel_append
    (List.forall₂_same.2 fun delayed member => kept delayed (List.mem_append_left _ member))
    (.cons ⟨rfl, mirrors_ask client method template params body count other⟩
      (List.forall₂_same.2 fun delayed member => kept delayed (List.mem_append_right _ member))))

/-! ## Two spellings -/

/-- A request through a template with so many slashes in front. -/
def askingThrough (count : Nat) : List (Duration × Action) :=
  [(0, .ask clientOfSlashedHost .get "a" [] none count)]

/-- When something was sent, and to which URL. -/
def sends (session : Session) : List (Instant × String) :=
  session.world.exchange.wire.sent.map fun sent => (sent.sentAt, sent.request.url)

/-- A response to a request that succeeded. -/
def succeeding (headers : Http.Headers) : Http.Prepared := ⟨.ok ⟨⟨203, by decide⟩, headers, []⟩, 0⟩

/-- The gate has noted the response to a first request, and nothing else has happened. -/
theorem perform_askingThrough (headers : Http.Headers) (replies : List Http.Prepared) :
    let first := ofSettings slashedHost replies
    let noted := Gate.Event.observe (spelling .get "a" 0) (Report.ofHeaders headers) .succeeded
    let request := clientOfSlashedHost.requestOf (.compile .get "a" []) none
    ((ofSettings slashedHost (succeeding headers :: replies)).perform (askingThrough 0)).2 =
      { first with world.exchange :=
          ⟨first.world.gate.apply noted 0, replies, [⟨0, request⟩]⟩ } := by
  cbv

/-- The headers that say that a bucket is exhausted for three seconds. -/
def exhaustingHeaders : Http.Headers :=
  [(Report.bucketName, "b1"), (Report.limitName, "5"), (Report.remainingName, "0"),
    (Report.resetAfterName, "3")].map fun (name, text) => (name, ⟨Utf8.encode text, false⟩)

/-- What they say. -/
def exhausted : Report where
  bucket := some "b1"
  limit := some 5
  remaining := some 0
  reset := none
  resetAfter := some (.ofSeconds 3)
  retryAfter := none
  scope := none

theorem ofHeaders_exhaustingHeaders : Report.ofHeaders exhaustingHeaders = exhausted := by
  decide +kernel

/-- After a request has exhausted its bucket the next one through the same template waits for the
end of the window, and one through the template with a slash in front is sent at once, to the same
URL. -/
theorem other_spelling_sent_at_once :
    let replies := [succeeding exhaustingHeaders, succeeding []]
    let session := ((ofSettings slashedHost replies).perform (askingThrough 0)).2
    (session.perform (askingThrough 0)).2.sends =
        [(0, "https://h/v10/a"), (Duration.ofSeconds 3, "https://h/v10/a")] ∧
      (session.perform (askingThrough 1)).2.sends =
        [(0, "https://h/v10/a"), (0, "https://h/v10/a")] := by
  intro replies session
  have reached := perform_askingThrough exhaustingHeaders [succeeding []]
  simp only [ofHeaders_exhaustingHeaders] at reached
  simp only [session, replies, reached]
  constructor
  · cbv
  · cbv

/-- Two spellings of one endpoint make the same request and are two routes. Requests through them
are held back for the same time exactly if, at the instant at which the lockout is found off, the
two routes have the same wait, whatever happens to the gate before and after; and a spelling that no
complete report was about is held back by the lockout alone. Where both are counted in one bucket,
or neither in any, a request through either goes alike among whatever others that are on neither:
with the same results at the same instants but for the route that a failure names, and with the
same requests sent. -/
theorem spellings_alike (client : Client) (method : Http.Method) (template : String)
    (params : List PathParam) (body : Option Json.Value) (count other : Nat) :
    (Action.ask client method template params body other).request? =
        (Action.ask client method template params body count).request? ∧
      (∀ (timeline : Timeline) (start : Instant),
        (∀ stop, timeline.Comes (spelling method template other) start stop ↔
            timeline.Comes (spelling method template count) start stop) ↔
          ∀ look, timeline.Clears (spelling method template count) start look →
            (timeline look).registry.wakeAt? (spelling method template other) look =
              (timeline look).registry.wakeAt? (spelling method template count) look) ∧
      (∀ (origin start : Instant) (fallback : Duration) (seen : Instant → Gate.History),
        (∀ now, (seen now).bucketsOf (spelling method template count) = []) → ∀ stop,
          (Timeline.ofHistories origin fallback seen).Comes
              (spelling method template count) start stop ↔
            (Timeline.ofHistories origin fallback seen).Clears
              (spelling method template count) start stop) ∧
      ∀ (session : Session) (before after : List (Duration × Action)) (delay : Duration),
        session.world.gate.registry.bucketId? (spelling method template other) =
            session.world.gate.registry.bucketId? (spelling method template count) →
          (∀ delayed ∈ before ++ after, ∀ route ∈ delayed.2.route?,
            route ≠ spelling method template count ∧ route ≠ spelling method template other) →
          let names := Equiv.swap (spelling method template count) (spelling method template other)
          let one := session.perform
            (before ++ (delay, .ask client method template params body count) :: after)
          let another := session.perform
            (before ++ (delay, .ask client method template params body other) :: after)
          another.1 = one.1.map (Prod.map (Result.rename names) id) ∧
            one.2.Mirrors names another.2 := by
  refine ⟨?_, fun timeline => timeline.comes_iff_iff_wakeAt?_eq _ _,
    fun origin start fallback seen unreported stop =>
      Timeline.comes_iff_clears_of_unreported _ start unreported,
    fun session before after delay alike elsewhere =>
      perform_ask_mirrors alike elsewhere client params body delay⟩
  show some (client.requestOf _ body) = some (client.requestOf _ body)
  rw [Client.requestOf_slashed, Client.requestOf_slashed]

/-- A response on either spelling that counts it in the exhausted bucket. -/
def countingBoth : List (Duration × Action) :=
  [0, 1].map fun count => (0, .observe (spelling .get "a" count) exhausted .succeeded)

/-- Once both spellings are counted in the exhausted bucket, either waits for the end of its
window. -/
theorem spellings_alike_in_one_bucket :
    let session := ((ofSettings slashedHost [succeeding []]).perform countingBoth).2
    (session.perform (askingThrough 1)).1 = (session.perform (askingThrough 0)).1.map
        (Prod.map (Result.rename (Equiv.swap (spelling .get "a" 0) (spelling .get "a" 1))) id) ∧
      (session.perform (askingThrough 1)).2.sends = (session.perform (askingThrough 0)).2.sends ∧
      (session.perform (askingThrough 0)).2.sends =
        [(Duration.ofSeconds 3, "https://h/v10/a")] := by
  intro session
  have alike : session.world.gate.registry.bucketId? (spelling .get "a" 1) =
      session.world.gate.registry.bucketId? (spelling .get "a" 0) := by cbv
  obtain ⟨-, -, -, wholes⟩ := spellings_alike clientOfSlashedHost .get "a" [] none 0 1
  obtain ⟨results, mirrors⟩ := wholes session [] [] 0 alike fun _ member =>
    absurd member List.not_mem_nil
  have wire := mirrors.world.exchange.wire
  exact ⟨results, congrArg (fun wire : Http.Wire => wire.sent.map _) wire, by cbv⟩

end Session

end QuotaGate
