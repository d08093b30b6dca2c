import Phrasebook.Proofs.Locale.Quiet

set_option autoImplicit false

/-!
The deliveries of a store whose subscribers leave it alone. What each of them is told, and in which
order, follows from the operations: the state that is active when it subscribes, then that of every
activation up to its first unsubscription.
-/
namespace Phrasebook.Locale

variable {World : Type}

/-! ### What operations tell -/

/-- The states that operations activate. -/
def activations (defaultLocale : String) (operations : List (Operation World)) : List State :=
  operations.filterMap (Operation.activated? defaultLocale)

/-- What is active after operations. -/
def active (start : State) (operations : List (Operation World)) : State :=
  (activations start.locale operations).getLast?.getD start

/-- Takes the subscriber with a token off the list. -/
def Operation.ends (token : Nat) : Operation World → Bool
  | unsubscribe other => other = token
  | _ => false

@[simp] theorem Operation.ends_subscribe (token : Nat) (subscriber : Subscriber World) :
    (subscribe subscriber).ends token = false := rfl

@[simp] theorem Operation.ends_unsubscribe (token other : Nat) :
    (unsubscribe other : Operation World).ends token = decide (other = token) := rfl

/-- The subscribers that operations add and do not take off the list later. -/
def registered : List (Operation World) → List (Subscriber World)
  | [] => []
  | .subscribe subscriber :: later =>
    if later.any (·.ends subscriber.token) then registered later
    else subscriber :: registered later
  | _ :: later => registered later

namespace Store

section Operations

variable (store : Store World)

theorem after_state (operation : Operation World) :
    (store.after operation).state =
      (operation.activated? store.defaultLocale).getD store.state := by
  cases operation <;> rfl

theorem afterAll_concat (operations : List (Operation World)) (operation : Operation World) :
    store.afterAll (operations ++ [operation]) = (store.afterAll operations).after operation := by
  rw [afterAll, List.foldl_append]
  rfl

/-- What is active is what was activated last. -/
theorem afterAll_state (operations : List (Operation World)) :
    (store.afterAll operations).state =
      (activations store.defaultLocale operations).getLast?.getD store.state := by
  induction operations using List.reverseRecOn with
  | nil => rfl
  | append_singleton operations operation ih =>
    rw [afterAll_concat, after_state, afterAll_defaultLocale, ih, activations, activations,
      List.filterMap_append, List.getLast?_append]
    cases activated : operation.activated? store.defaultLocale with
    | none => simp [activated]
    | some state => simp [activated]

theorem tells_activated {operation : Operation World} {state : State}
    (activated : operation.activated? store.defaultLocale = some state) :
    store.tells operation =
      store.subscribers.map fun subscriber => state.toldTo subscriber.token := by
  cases operation with
  | subscribe subscriber => cases activated
  | unsubscribe token => cases activated
  | activate locale messages => simp [tells, activated]
  | reset => simp [tells, activated]

theorem tellsAll_append (operations later : List (Operation World)) :
    store.tellsAll (operations ++ later) =
      store.tellsAll operations ++ (store.afterAll operations).tellsAll later := by
  induction operations generalizing store with
  | nil => rfl
  | cons operation rest ih =>
    rw [List.cons_append, tellsAll, tellsAll, ih, List.append_assoc]
    rfl

end Operations

/-! ### What one subscriber is told -/

section Counting

variable {store : Store World} {token : Nat}

/-- How often a token is on the list. -/
def count (store : Store World) (token : Nat) : Nat :=
  store.subscribers.countP fun subscriber => subscriber.token = token

theorem countP_removeFirst_self (token : Nat) (subscribers : List (Subscriber World)) :
    (removeFirst token subscribers).countP (fun subscriber => subscriber.token = token) =
      subscribers.countP (fun subscriber => subscriber.token = token) - 1 := by
  induction subscribers with
  | nil => rfl
  | cons first rest ih =>
    rw [removeFirst]
    by_cases own : first.token = token
    · simp [own]
    · simp [own, ih]

theorem countP_removeFirst_other {other : Nat} (apart : other ≠ token)
    (subscribers : List (Subscriber World)) :
    (removeFirst other subscribers).countP (fun subscriber => subscriber.token = token) =
      subscribers.countP fun subscriber => subscriber.token = token := by
  induction subscribers with
  | nil => rfl
  | cons first rest ih =>
    rw [removeFirst]
    by_cases own : first.token = other
    · have further : first.token ≠ token := by rwa [own]
      rw [if_pos own, List.countP_cons_of_neg (by simpa using further)]
    · simp [own, List.countP_cons, ih]

/-- An operation that neither adds nor ends a subscription leaves it on the list as it is. -/
theorem count_after {operation : Operation World}
    (others : ∀ subscriber ∈ operation.subscriber?, subscriber.token ≠ token)
    (lasts : operation.ends token = false) :
    (store.after operation).count token = store.count token := by
  cases operation with
  | subscribe subscriber =>
    have apart := others subscriber rfl
    simp [count, after, List.countP_append, apart]
  | unsubscribe other =>
    exact countP_removeFirst_other (by simpa [Operation.ends] using lasts) _
  | activate locale messages => rfl
  | reset => rfl

theorem eq_of_ends {operation : Operation World} (ends : operation.ends token = true) :
    operation = .unsubscribe token := by
  cases operation with
  | unsubscribe other =>
    have same : other = token := by simpa [Operation.ends] using ends
    rw [same]
  | _ => cases ends

theorem count_unsubscribe (store : Store World) (token : Nat) :
    (store.after (.unsubscribe token)).count token = store.count token - 1 :=
  countP_removeFirst_self token store.subscribers

theorem count_subscribe (store : Store World) (subscriber : Subscriber World) :
    (store.after (.subscribe subscriber)).count subscriber.token =
      store.count subscriber.token + 1 := by
  simp [count, after, List.countP_append]

/-- Who is not on the list does not come onto it by the operations of others. -/
theorem count_after_absent {operation : Operation World} (absent : store.count token = 0)
    (others : ∀ subscriber ∈ operation.subscriber?, subscriber.token ≠ token) :
    (store.after operation).count token = 0 := by
  cases lasts : operation.ends token with
  | false => rw [count_after others lasts, absent]
  | true => rw [eq_of_ends lasts, count_unsubscribe, absent]

theorem count_afterAll_absent {operations : List (Operation World)}
    (absent : store.count token = 0)
    (others : ∀ operation ∈ operations, ∀ subscriber ∈ operation.subscriber?,
      subscriber.token ≠ token) : (store.afterAll operations).count token = 0 := by
  induction operations generalizing store with
  | nil => exact absent
  | cons operation rest ih =>
    obtain ⟨own, later⟩ := List.forall_mem_cons.mp others
    exact ih (count_after_absent absent own) later

theorem told_about (state : State) (token : Nat) (subscribers : List (Subscriber World)) :
    ((subscribers.map fun subscriber => state.toldTo subscriber.token).filter
      fun delivery => delivery.token = token) =
      List.replicate (subscribers.countP fun subscriber => subscriber.token = token)
        (state.toldTo token) := by
  induction subscribers with
  | nil => rfl
  | cons first rest ih =>
    rw [List.map_cons, List.filter_cons, List.countP_cons, ih]
    by_cases own : first.token = token
    · simp [own, State.toldTo, List.replicate_succ]
    · simp [own, State.toldTo]

/-- Who is on the list is told what an operation activates, as often as it is on the list. -/
theorem tells_about {operation : Operation World}
    (others : ∀ subscriber ∈ operation.subscriber?, subscriber.token ≠ token) :
    ((store.tells operation).filter fun delivery => delivery.token = token) =
      (operation.activated? store.defaultLocale).toList.flatMap fun state =>
        List.replicate (store.count token) (state.toldTo token) := by
  cases operation with
  | subscribe subscriber =>
    have apart := others subscriber rfl
    simp [tells, State.toldTo, apart, Operation.activated?]
  | unsubscribe other => rfl
  | activate locale messages =>
    cases activated : (Operation.activate locale messages).activated? store.defaultLocale with
    | none => simp [tells, activated]
    | some state => simp [tells, activated, told_about, count]
  | reset =>
    cases activated : Operation.reset.activated? store.defaultLocale with
    | none => simp [tells, activated]
    | some state => simp [tells, activated, told_about, count]

/-- Who is not on the list and does not come onto it is told nothing. -/
theorem tellsAll_absent {operations : List (Operation World)} (absent : store.count token = 0)
    (others : ∀ operation ∈ operations, ∀ subscriber ∈ operation.subscriber?,
      subscriber.token ≠ token) :
    (store.tellsAll operations).filter (fun delivery => delivery.token = token) = [] := by
  induction operations generalizing store with
  | nil => rfl
  | cons operation rest ih =>
    obtain ⟨own, later⟩ := List.forall_mem_cons.mp others
    rw [tellsAll, List.filter_append, tells_about own, absent,
      ih (count_after_absent absent own) later]
    simp

/-- Who is on the list is told what is activated until it is taken off. -/
theorem tellsAll_listed {operations : List (Operation World)} (listed : store.count token = 1)
    (others : ∀ operation ∈ operations, ∀ subscriber ∈ operation.subscriber?,
      subscriber.token ≠ token) :
    (store.tellsAll operations).filter (fun delivery => delivery.token = token) =
      (activations store.defaultLocale (operations.takeWhile fun operation =>
        !operation.ends token)).map fun state => state.toldTo token := by
  induction operations generalizing store with
  | nil => rfl
  | cons operation rest ih =>
    obtain ⟨own, later⟩ := List.forall_mem_cons.mp others
    rw [tellsAll, List.filter_append, tells_about own, listed]
    cases lasts : operation.ends token with
    | false =>
      have still := (count_after own lasts).trans listed
      rw [ih still later, List.takeWhile_cons_of_pos (by simp [lasts]), after_defaultLocale,
        activations, activations]
      cases activated : operation.activated? store.defaultLocale with
      | none => simp [activated]
      | some state => simp [activated]
    | true =>
      obtain rfl := eq_of_ends lasts
      have gone : (store.after (.unsubscribe token)).count token = 0 := by
        rw [count_unsubscribe, listed]
      rw [tellsAll_absent gone later, List.takeWhile_cons_of_neg (by simp [lasts])]
      rfl

end Counting

/-! ### Who is on the list -/

theorem removeFirst_eq_filter {subscribers : List (Subscriber World)} (token : Nat)
    (distinct : (subscribers.map Subscriber.token).Nodup) :
    removeFirst token subscribers = subscribers.filter fun subscriber =>
      !decide (token = subscriber.token) := by
  induction subscribers with
  | nil => rfl
  | cons first rest ih =>
    obtain ⟨apart, distinct⟩ := List.nodup_cons.mp distinct
    rw [removeFirst]
    by_cases own : first.token = token
    · have others : ∀ subscriber ∈ rest, token ≠ subscriber.token := by
        rintro subscriber member same
        exact apart (own.trans same ▸ List.mem_map_of_mem member)
      rw [if_pos own, List.filter_cons_of_neg (by simp [own])]
      exact (List.filter_eq_self.mpr fun other member => by simp [others other member]).symm
    · rw [if_neg own, ih distinct, List.filter_cons_of_pos (by simpa using Ne.symm own)]

/-- Those are on the list who were, or who came onto it, and have not been taken off since. -/
theorem afterAll_subscribers {store : Store World} {operations : List (Operation World)}
    (distinct : ((store.subscribers ++ operations.filterMap Operation.subscriber?).map
      Subscriber.token).Nodup) :
    (store.afterAll operations).subscribers =
      (store.subscribers.filter fun subscriber => !operations.any (·.ends subscriber.token)) ++
        registered operations := by
  induction operations generalizing store with
  | nil => simp [afterAll, registered]
  | cons operation rest ih =>
    rw [afterAll, List.foldl_cons]
    cases operation with
    | subscribe subscriber =>
      have further : (((store.after (.subscribe subscriber)).subscribers ++
          rest.filterMap Operation.subscriber?).map Subscriber.token).Nodup := by
        simpa [after, Operation.subscriber?] using distinct
      refine (ih further).trans ?_
      rw [after, List.filter_append, List.append_assoc, registered]
      cases ended : rest.any (·.ends subscriber.token) with
      | false => simp [ended]
      | true => simp [ended]
    | unsubscribe token =>
      have own : (store.subscribers.map Subscriber.token).Nodup := by
        rw [List.map_append] at distinct
        exact (List.nodup_append.mp distinct).1
      have fewer : ((store.after (.unsubscribe token)).subscribers ++
          rest.filterMap Operation.subscriber?).Sublist
            (store.subscribers ++ rest.filterMap Operation.subscriber?) :=
        (removeFirst_sublist token store.subscribers).append_right _
      have further := (fewer.map Subscriber.token).nodup distinct
      refine (ih further).trans ?_
      simp [after, removeFirst_eq_filter token own, List.filter_filter, registered,
        Bool.and_comm]
    | activate locale messages => exact ih distinct
    | reset => exact ih distinct

end Store

/-! ### Runs -/

/-- If all subscriptions have their own tokens, then none has that of another one. -/
theorem apart_of_distinct {before later : List (Operation World)} {subscriber : Subscriber World}
    (distinct : (((before ++ .subscribe subscriber :: later).filterMap
      Operation.subscriber?).map Subscriber.token).Nodup) :
    ∀ operation ∈ before ++ later, ∀ other ∈ operation.subscriber?,
      other.token ≠ subscriber.token := by
  have own : (Operation.subscribe subscriber).subscriber? = some subscriber := rfl
  rw [List.filterMap_append, List.filterMap_cons_some own, List.map_append, List.map_cons,
    List.nodup_middle, List.nodup_cons, ← List.map_append, ← List.filterMap_append] at distinct
  intro operation member other added same
  apply distinct.1
  rw [← same]
  exact List.mem_map_of_mem (List.mem_filterMap.mpr ⟨operation, member, added⟩)

/-- A new subscriber is told what is active, and from then on what is activated until it is taken
off the list. -/
theorem Store.tellsAll_subscribed {store : Store World} {before later : List (Operation World)}
    {subscriber : Subscriber World} (absent : store.count subscriber.token = 0)
    (others : ∀ operation ∈ before ++ later, ∀ other ∈ operation.subscriber?,
      other.token ≠ subscriber.token) :
    ((store.tellsAll (before ++ .subscribe subscriber :: later)).filter fun delivery =>
      delivery.token = subscriber.token) =
      ((store.afterAll before).state :: activations store.defaultLocale
        (later.takeWhile fun operation => !operation.ends subscriber.token)).map
          fun state => state.toldTo subscriber.token := by
  obtain ⟨earlier, further⟩ := List.forall_mem_append.mp others
  have listed : ((store.afterAll before).after (.subscribe subscriber)).count
      subscriber.token = 1 := by
    rw [Store.count_subscribe, Store.count_afterAll_absent absent earlier]
  have first : ((store.afterAll before).tells (.subscribe subscriber)).filter
      (fun delivery => delivery.token = subscriber.token) =
        [(store.afterAll before).state.toldTo subscriber.token] := by
    simp [Store.tells, State.toldTo]
  rw [Store.tellsAll_append, Store.tellsAll, List.filter_append, List.filter_append,
    Store.tellsAll_absent absent earlier, first, Store.tellsAll_listed listed further,
    Store.after_defaultLocale, Store.afterAll_defaultLocale]
  rfl

namespace Session

section Settled

variable {steps : Nat} {start : Session World} {operations before later : List (Operation World)}

/-- In a run that begins with an empty list, a subscriber is told what was active when it subscribed
and what was activated until it was taken off the list. -/
theorem told_subscriber
    (settled : ∀ earlier, earlier <+: operations → Settled steps start operations earlier)
    (silent : start.deliveries = []) (nobody : start.store.subscribers = [])
    (distinct : ((operations.filterMap Operation.subscriber?).map Subscriber.token).Nodup)
    {subscriber : Subscriber World} (split : operations = before ++ .subscribe subscriber :: later) :
    (start.performAll steps operations).told subscriber.token =
      ((start.store.afterAll before).state :: activations start.store.defaultLocale
        (later.takeWhile fun operation => !operation.ends subscriber.token)).map
          fun state => state.toldTo subscriber.token := by
  have absent : start.store.count subscriber.token = 0 := by simp [Store.count, nobody]
  have others := apart_of_distinct (split ▸ distinct)
  rw [told, (settled operations List.prefix_rfl).deliveries, silent, List.nil_append, split]
  exact Store.tellsAll_subscribed absent others

/-- An activation tells those on the list, in their order. -/
theorem deliveries_activated
    (settled : ∀ earlier, earlier <+: operations → Settled steps start operations earlier)
    (nobody : start.store.subscribers = [])
    (distinct : ((operations.filterMap Operation.subscriber?).map Subscriber.token).Nodup)
    {operation : Operation World} (within : before ++ [operation] <+: operations) {state : State}
    (activated : operation.activated? start.store.defaultLocale = some state) :
    (start.performAll steps (before ++ [operation])).deliveries =
      (start.performAll steps before).deliveries ++
        (registered before).map fun subscriber => state.toldTo subscriber.token := by
  have earlier : before <+: operations := (List.prefix_append before [operation]).trans within
  have fewer : ((before.filterMap Operation.subscriber?).map Subscriber.token).Nodup :=
    ((earlier.sublist.filterMap _).map _).nodup distinct
  have listed : (start.store.afterAll before).subscribers = registered before := by
    rw [Store.afterAll_subscribers (by rwa [nobody, List.nil_append]), nobody]
    rfl
  have tells : (start.store.afterAll before).tells operation =
      (start.store.afterAll before).subscribers.map
        fun subscriber => state.toldTo subscriber.token := by
    refine Store.tells_activated _ ?_
    rwa [Store.afterAll_defaultLocale]
  rw [(settled _ within).deliveries, (settled _ earlier).deliveries, Store.tellsAll_append,
    Store.tellsAll, Store.tellsAll, tells, listed, List.append_nil, List.append_assoc]

/-- An operation that is to activate an empty locale changes nothing; all others return. -/
theorem perform_result
    (settled : ∀ earlier, earlier <+: operations → Settled steps start operations earlier)
    {operation : Operation World} (within : before ++ [operation] <+: operations) :
    if operation.isRefused start.store.defaultLocale then
      (start.performAll steps before).perform steps operation =
        (start.performAll steps before, .error .emptyLocale)
    else ((start.performAll steps before).perform steps operation).2 = .ok () := by
  have earlier : before <+: operations := (List.prefix_append before [operation]).trans within
  have same : (start.performAll steps before).store.defaultLocale =
      start.store.defaultLocale := by
    rw [(settled _ earlier).store, Store.afterAll_defaultLocale]
  split_ifs with refused
  · exact perform_refused steps (by rwa [same])
  · have member : operation ∈ operations := within.subset (by simp)
    rw [(settled _ earlier).ends operation member]
    exact if_neg refused

end Settled

end Session

open Session

/-- With enough steps a run among quiet subscribers with tokens of their own tells each of them the
state that is active when it subscribes and then every state that is activated until it is taken
off the list. An operation that activates a state tells it those on the list, in the order in which
they subscribed; what was activated last is active; and an operation that is to activate an empty
locale fails and changes nothing, while all others return. -/
theorem run_deliveries {operations : List (Operation World)} (defaultLocale : String)
    (messages : Translations) (world : World)
    (quiet : ∀ operation ∈ operations, operation.Reacts Reaction.IsQuiet)
    (distinct : ((operations.filterMap Operation.subscriber?).map Subscriber.token).Nodup) :
    ∃ enough, ∀ steps, enough ≤ steps →
      let session := (begin defaultLocale messages world).performAll steps
      let start : State := ⟨defaultLocale, messages⟩
      (∀ before subscriber later, operations = before ++ .subscribe subscriber :: later →
        (session operations).told subscriber.token =
          (active start before :: activations defaultLocale
            (later.takeWhile fun operation => !operation.ends subscriber.token)).map
              fun state => state.toldTo subscriber.token) ∧
      ∀ before operation later, operations = before ++ operation :: later →
        (∀ state, operation.activated? defaultLocale = some state →
          (session (before ++ [operation])).deliveries = (session before).deliveries ++
            (registered before).map fun subscriber => state.toldTo subscriber.token) ∧
        (session (before ++ [operation])).store.state = active start (before ++ [operation]) ∧
        (if operation.isRefused defaultLocale then
          (session before).perform steps operation = (session before, .error .emptyLocale)
        else ((session before).perform steps operation).2 = .ok ()) := by
  have nobody := begin_allReact Reaction.IsQuiet defaultLocale messages world
  obtain ⟨enough, settles⟩ := Filter.eventually_atTop.mp (performAll_settled nobody quiet)
  refine ⟨enough, fun steps more => ?_⟩
  have settled := settles steps more
  refine ⟨?_, ?_⟩
  · intro before subscriber later split
    refine (told_subscriber settled rfl rfl distinct split).trans ?_
    rw [Store.afterAll_state]
    rfl
  · intro before operation later split
    have within : before ++ [operation] <+: operations := ⟨later, by simp [split]⟩
    refine ⟨?_, ?_, perform_result settled within⟩
    · intro state activated
      exact deliveries_activated settled rfl distinct within activated
    · rw [(settled _ within).store, Store.afterAll_state]
      rfl

/-! ### Two recorders -/

/-- Keeps what is active whenever it is told something. -/
def recorder (token : Nat) : Subscriber (List State) :=
  ⟨token, fun _ => .look fun seen state => .write (seen ++ [state]) .finish⟩

theorem recorder_quiet (token : Nat) : (recorder token).Reacts Reaction.IsQuiet :=
  fun _ => .look fun _ _ => .write .finish

/-- Two recorders come one after the other, and the first one goes before the other. -/
def recordedRun : List (Operation (List State)) :=
  [.subscribe (recorder 1), .activate "ja" [], .subscribe (recorder 2), .activate "fr" [],
    .unsubscribe 1, .activate "" [], .unsubscribe 1, .reset]

theorem recordedRun_quiet : ∀ operation ∈ recordedRun, operation.Reacts Reaction.IsQuiet := by
  intro operation member subscriber added
  simp only [recordedRun, List.mem_cons, List.not_mem_nil, or_false] at member
  rcases member with rfl | rfl | rfl | rfl | rfl | rfl | rfl | rfl <;> cases added
  · exact recorder_quiet 1
  · exact recorder_quiet 2

/-- Each recorder is told what is active while it is on the list, and both are told of French in
their order. -/
theorem run_deliveries_recorded :
    ∃ enough, ∀ steps, enough ≤ steps →
      let session := (begin "en" [] []).performAll steps
      ((session recordedRun).told 1).map Delivery.locale = ["en", "ja", "fr"] ∧
      ((session recordedRun).told 2).map Delivery.locale = ["ja", "fr", "en"] ∧
      (session (recordedRun.take 4)).deliveries =
        (session (recordedRun.take 3)).deliveries ++
          [⟨1, "fr", ⟨"fr", []⟩⟩, ⟨2, "fr", ⟨"fr", []⟩⟩] ∧
      (session (recordedRun.take 5)).perform steps (.activate "" []) =
        (session (recordedRun.take 5), .error .emptyLocale) := by
  obtain ⟨enough, runs⟩ := run_deliveries "en" [] [] recordedRun_quiet (by decide)
  refine ⟨enough, fun steps more => ?_⟩
  obtain ⟨told, each⟩ := runs steps more
  have first := told [] (recorder 1) _ rfl
  have second := told (recordedRun.take 2) (recorder 2) _ rfl
  obtain ⟨french, -⟩ := each (recordedRun.take 3) (.activate "fr" []) _ rfl
  obtain ⟨-, -, empty⟩ := each (recordedRun.take 5) (.activate "" []) _ rfl
  refine ⟨?_, ?_, french ⟨"fr", []⟩ rfl, empty⟩
  · exact (congrArg _ first).trans rfl
  · exact (congrArg _ second).trans rfl

end Phrasebook.Locale
