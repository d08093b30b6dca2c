import Mathlib.Data.List.Perm.Basic
import Phrasebook.Proofs.Locale.Deliveries

set_option autoImplicit false

/-!
Subscriptions and the handles that they give. A subscription that returns gives a handle, and
whoever subscribed uses it to unsubscribe. Subscribers who leave the store alone, but may fail at
any time, are on the list exactly as often as their handles are outstanding, as long as no
subscription fails and no handle is used again while its subscriber has another one.
-/
namespace Phrasebook.Locale

variable {World : Type}

/-- Leaves the store alone. It may fail. -/
inductive Reaction.IsAside : Reaction World → Prop where
  | finish : IsAside .finish
  | fail (failure : Failure) : IsAside (.fail failure)
  | look {next : World → State → Reaction World}
      (later : ∀ world state, IsAside (next world state)) : IsAside (.look next)
  | write {world : World} {next : Reaction World} (later : IsAside next) :
    IsAside (.write world next)

/-- What a subscription that returns gives, and whether it was used already. -/
structure Handle where
  token : Nat
  isUsed : Bool
  deriving DecidableEq, Repr

/-- What is done with a store by someone who unsubscribes by handles. They are numbered in the order
in which they were given. -/
inductive Call (World : Type) where
  | subscribe (subscriber : Subscriber World)
  | useHandle (index : Nat)
  | activate (locale : String) (messages : Translations)
  | reset

/-- The reactions of the subscriber that a call adds are of a kind. -/
def Call.Reacts (kind : Reaction World → Prop) : Call World → Prop
  | subscribe subscriber => subscriber.Reacts kind
  | _ => True

/-- A session with the handles that were given. -/
structure Client (World : Type) where
  session : Session World
  handles : List Handle

/-- The handles that were not used. -/
def Handle.outstanding (handles : List Handle) : List Handle := handles.filter (!·.isUsed)

namespace Client

def begin (defaultLocale : String) (messages : Translations) (world : World) : Client World :=
  ⟨.begin defaultLocale messages world, []⟩

/-- Who is on the list. -/
def listed (client : Client World) : List Nat :=
  client.session.store.subscribers.map Subscriber.token

/-- Who has handles that were not used. -/
def outstanding (client : Client World) : List Nat :=
  (Handle.outstanding client.handles).map Handle.token

/-- Subscribers are on the list as often as they have handles that were not used. -/
def IsBalanced (client : Client World) : Prop := client.listed.Perm client.outstanding

/-- Makes a call. A subscription that fails gives no handle. -/
def perform (steps : Nat) (client : Client World) : Call World → Client World × Except Failure Unit
  | .subscribe subscriber =>
    match client.session.subscribe steps subscriber with
    | (session, .ok ()) => (⟨session, client.handles ++ [⟨subscriber.token, false⟩]⟩, .ok ())
    | (session, .error failure) => (⟨session, client.handles⟩, .error failure)
  | .useHandle index =>
    match client.handles[index]? with
    | some handle =>
      (⟨client.session.unsubscribe handle.token, client.handles.set index ⟨handle.token, true⟩⟩,
        .ok ())
    | none => (client, .ok ())
  | .activate locale messages =>
    let (session, result) := client.session.perform steps (.activate locale messages)
    (⟨session, client.handles⟩, result)
  | .reset =>
    let (session, result) := client.session.perform steps .reset
    (⟨session, client.handles⟩, result)

/-- Makes calls one after another, whether they fail or not. -/
def performAll (steps : Nat) (client : Client World) (calls : List (Call World)) : Client World :=
  calls.foldl (fun client call => (client.perform steps call).1) client

/-- A subscription returns, and a handle is used for the first time or when its subscriber has no
other one outstanding. -/
def Keeps (steps : Nat) (client : Client World) : Call World → Prop
  | .subscribe subscriber => (client.perform steps (.subscribe subscriber)).2 = .ok ()
  | .useHandle index =>
    ∀ handle ∈ client.handles[index]?, handle.isUsed = true → handle.token ∉ client.outstanding
  | _ => True

instance (steps : Nat) (client : Client World) (call : Call World) :
    Decidable (client.Keeps steps call) :=
  match call with
  | .subscribe subscriber =>
    inferInstanceAs (Decidable ((client.perform steps (.subscribe subscriber)).2 = .ok ()))
  | .useHandle index =>
    inferInstanceAs (Decidable (∀ handle ∈ client.handles[index]?,
      handle.isUsed = true → handle.token ∉ client.outstanding))
  | .activate _ _ => .isTrue trivial
  | .reset => .isTrue trivial

/-- All calls keep subscribers and handles in balance. -/
def KeepsAll (steps : Nat) (client : Client World) : List (Call World) → Prop
  | [] => True
  | call :: rest => client.Keeps steps call ∧ (client.perform steps call).1.KeepsAll steps rest

end Client

/-! ### Subscribers who leave the store alone -/

namespace Session

section Aside

variable {steps : Nat} {session : Session World}

theorem react_aside (steps : Nat) {reaction : Reaction World} (aside : reaction.IsAside)
    (session : Session World) :
    ∃ world, (react steps session reaction).1 = session.withWorld world := by
  induction aside generalizing session steps with
  | finish => cases steps <;> exact ⟨session.world, rfl⟩
  | fail failure => cases steps <;> exact ⟨session.world, rfl⟩
  | look _ ih =>
    cases steps with
    | zero => exact ⟨session.world, rfl⟩
    | succ steps => exact ih session.world session.store.state steps session
  | @write world _ _ ih =>
    cases steps with
    | zero => exact ⟨session.world, rfl⟩
    | succ steps => exact ih steps (session.withWorld world)

theorem subscribe_aside (steps : Nat) (session : Session World) {subscriber : Subscriber World}
    (aside : subscriber.Reacts Reaction.IsAside) :
    (session.subscribe steps subscriber).1.store.subscribers =
      session.store.subscribers ++ [subscriber] := by
  obtain ⟨world, done⟩ := react_aside steps (aside session.store.state.locale)
    ((session.withSubscribers (session.store.subscribers ++ [subscriber])).withDelivery
      (session.store.state.toldTo subscriber.token))
  exact (congrArg (fun after : Session World => after.store.subscribers) done).trans rfl

/-- An activation tells subscribers in their order, all of them unless one fails. -/
theorem tellAll_aside {subscribers : List (Subscriber World)}
    (aside : ∀ subscriber ∈ subscribers, subscriber.Reacts Reaction.IsAside) :
    ∃ told, told <+: subscribers ∧
      (∃ world,
        (tellAll (react steps) session.store.state.locale session subscribers).1 =
          ⟨session.store, world, session.deliveries ++ told.map fun subscriber =>
            session.store.state.toldTo subscriber.token⟩) ∧
      ((tellAll (react steps) session.store.state.locale session subscribers).2 = .ok () →
        told = subscribers) := by
  induction subscribers generalizing session with
  | nil =>
    refine ⟨[], List.prefix_rfl, ⟨session.world, ?_⟩, fun _ => rfl⟩
    rw [tellAll, List.map_nil, List.append_nil]
  | cons subscriber rest ih =>
    obtain ⟨own, others⟩ := List.forall_mem_cons.mp aside
    obtain ⟨world, first⟩ := react_aside steps (own session.store.state.locale)
      (session.withDelivery (session.store.state.toldTo subscriber.token))
    have one : (tell (react steps) session.store.state.locale session subscriber).1 =
        ⟨session.store, world, session.deliveries ++
          [session.store.state.toldTo subscriber.token]⟩ := first
    cases ended : (tell (react steps) session.store.state.locale session subscriber).2 with
    | error failure =>
      rw [tellAll_cons_error rest ended]
      refine ⟨[subscriber], ⟨rest, rfl⟩, ⟨world, one⟩, fun returned => ?_⟩
      cases returned
    | ok _ =>
      rw [tellAll_cons_ok rest ended, one]
      obtain ⟨told, within, ⟨later, done⟩, whole⟩ := @ih
        ⟨session.store, world, session.deliveries ++
          [session.store.state.toldTo subscriber.token]⟩ others
      refine ⟨subscriber :: told, ?_, ⟨later, ?_⟩, ?_⟩
      · exact (List.prefix_cons_inj subscriber).mpr within
      · rw [done, List.append_assoc]
        rfl
      · intro returned
        rw [whole returned]

theorem activate_aside (steps : Nat) {locale : String} (messages : Translations)
    (given : locale.isEmpty = false) (all : session.AllReact Reaction.IsAside) :
    ∃ told, told <+: session.store.subscribers ∧
      (session.activate steps locale messages).1.store.subscribers = session.store.subscribers ∧
      (session.activate steps locale messages).1.deliveries =
        session.deliveries ++ told.map (fun subscriber =>
          State.toldTo ⟨locale, messages⟩ subscriber.token) ∧
      ((∃ state, (session.activate steps locale messages).2 = .ok state) →
        told = session.store.subscribers) := by
  obtain ⟨told, within, ⟨world, done⟩, whole⟩ :=
    @tellAll_aside _ steps (session.withState ⟨locale, messages⟩) session.store.subscribers all
  have ended : (tellAll (react steps) locale (session.withState ⟨locale, messages⟩)
      session.store.subscribers).1 = _ := done
  refine ⟨told, within, ?_, ?_, ?_⟩
  · rw [activate, activateBy_eq given, ended]
    rfl
  · rw [activate, activateBy_eq given, ended]
    rfl
  · rintro ⟨state, returned⟩
    exact whole (told_of_activateBy returned).2

theorem perform_activate_subscribers (steps : Nat) (locale : String) (messages : Translations)
    (all : session.AllReact Reaction.IsAside) :
    (session.perform steps (.activate locale messages)).1.store.subscribers =
      session.store.subscribers := by
  cases empty : locale.isEmpty with
  | true => rw [perform, activate, activateBy_empty messages empty]
  | false =>
    obtain ⟨-, -, same, -⟩ := activate_aside steps messages empty all
    exact same

end Aside

end Session

/-! ### Single calls -/

namespace Handle

/-- How often a subscriber has handles that were not used. -/
def count (handles : List Handle) (token : Nat) : Nat :=
  handles.countP fun handle => !handle.isUsed && handle.token = token

theorem count_outstanding (handles : List Handle) (token : Nat) :
    ((outstanding handles).map Handle.token).count token = count handles token := by
  rw [List.count_eq_countP, List.countP_map, outstanding, List.countP_filter, count]
  refine List.countP_congr fun handle _ => ?_
  simp [and_comm]

theorem count_cons (first : Handle) (rest : List Handle) (token : Nat) :
    count (first :: rest) token =
      count rest token + if first.isUsed = false ∧ first.token = token then 1 else 0 := by
  rw [count, List.countP_cons, ← count]
  simp

theorem count_concat (handles : List Handle) (token other : Nat) :
    count (handles ++ [⟨token, false⟩]) other =
      count handles other + if token = other then 1 else 0 := by
  rw [count, List.countP_append, ← count]
  simp [List.countP_singleton]

theorem count_pos {handles : List Handle} {handle : Handle} (member : handle ∈ handles)
    (unused : handle.isUsed = false) : 0 < count handles handle.token := by
  rw [count, List.countP_pos_iff]
  exact ⟨handle, member, by simp [unused]⟩

/-- Using a handle takes it off those that are outstanding, if it was one of them. -/
theorem count_set {handles : List Handle} {index : Nat} {handle : Handle}
    (present : handles[index]? = some handle) (token : Nat) :
    count (handles.set index ⟨handle.token, true⟩) token =
      if handle.isUsed = false ∧ handle.token = token then count handles token - 1
      else count handles token := by
  induction handles generalizing index with
  | nil => simp at present
  | cons first rest ih =>
    cases index with
    | zero =>
      obtain rfl : first = handle := by simpa using present
      rw [List.set_cons_zero, count_cons, count_cons, if_neg (by simp)]
      split_ifs
      · omega
      · rfl
    | succ index =>
      have later : rest[index]? = some handle := by simpa using present
      rw [List.set_cons_succ, count_cons, count_cons, ih later]
      by_cases counted : handle.isUsed = false ∧ handle.token = token
      · have positive : 0 < count rest token :=
          counted.2 ▸ count_pos (List.mem_of_getElem? later) counted.1
        rw [if_pos counted, if_pos counted]
        omega
      · rw [if_neg counted, if_neg counted]

end Handle

namespace Client

section Calls

variable {steps : Nat} {client : Client World}

theorem count_listed (client : Client World) (token : Nat) :
    client.listed.count token = client.session.store.count token := by
  rw [listed, List.count_eq_countP, List.countP_map, Store.count]
  refine List.countP_congr fun subscriber _ => ?_
  simp

theorem isBalanced_iff : client.IsBalanced ↔
    ∀ token, client.session.store.count token = Handle.count client.handles token := by
  rw [IsBalanced, List.perm_iff_count]
  simp only [count_listed, outstanding, Handle.count_outstanding]

theorem mem_outstanding_iff (client : Client World) (token : Nat) :
    token ∈ client.outstanding ↔ 0 < Handle.count client.handles token := by
  rw [outstanding, ← Handle.count_outstanding, List.count_pos_iff]

theorem session_subscribed (subscriber : Subscriber World) :
    (client.perform steps (.subscribe subscriber)).1.session =
      (client.session.subscribe steps subscriber).1 := by
  rw [perform]
  split
  · rename_i ended
    rw [ended]
  · rename_i ended
    rw [ended]

/-- Subscribing puts a subscriber on the list, whether or not it fails. -/
theorem count_subscribed {subscriber : Subscriber World}
    (aside : subscriber.Reacts Reaction.IsAside) (token : Nat) :
    (client.perform steps (.subscribe subscriber)).1.session.store.count token =
      client.session.store.count token + if subscriber.token = token then 1 else 0 := by
  rw [session_subscribed, Store.count, Session.subscribe_aside steps client.session aside, List.countP_append,
    ← Store.count]
  simp [List.countP_singleton]

theorem handles_subscribed {subscriber : Subscriber World} :
    (client.perform steps (.subscribe subscriber)).1.handles =
      if (client.perform steps (.subscribe subscriber)).2 = .ok () then
        client.handles ++ [⟨subscriber.token, false⟩]
      else client.handles := by
  rw [perform]
  split <;> simp

theorem subscribe_balanced_iff {subscriber : Subscriber World}
    (aside : subscriber.Reacts Reaction.IsAside) (balanced : client.IsBalanced) :
    (client.perform steps (.subscribe subscriber)).1.IsBalanced ↔
      client.Keeps steps (.subscribe subscriber) := by
  have before := isBalanced_iff.mp balanced
  rw [isBalanced_iff, Keeps, handles_subscribed]
  constructor
  · intro after
    by_contra failed
    have own := after subscriber.token
    rw [count_subscribed aside, if_neg failed, before, if_pos rfl] at own
    omega
  · intro returned token
    rw [count_subscribed aside, if_pos returned, Handle.count_concat, before]

theorem count_unsubscribed (session : Session World) (token other : Nat) :
    (session.unsubscribe token).store.count other =
      if token = other then session.store.count other - 1 else session.store.count other := by
  change (session.store.after (.unsubscribe token)).count other = _
  split_ifs with own
  · rw [own, Store.count_unsubscribe]
  · refine Store.count_after (fun subscriber added => ?_) (by simpa using own)
    cases added

theorem removeFirst_of_absent {store : Store World} {token : Nat}
    (absent : store.count token = 0) : removeFirst token store.subscribers = store.subscribers := by
  rw [Store.count] at absent
  generalize store.subscribers = subscribers at absent ⊢
  induction subscribers with
  | nil => rfl
  | cons first rest ih =>
    have apart : first.token ≠ token := by
      intro own
      simp [own] at absent
    rw [List.countP_cons_of_neg (by simpa using apart)] at absent
    rw [removeFirst, if_neg apart, ih absent]

theorem useHandle_balanced_iff {index : Nat} (balanced : client.IsBalanced) :
    (client.perform steps (.useHandle index)).1.IsBalanced ↔
      client.Keeps steps (.useHandle index) := by
  have before := isBalanced_iff.mp balanced
  rw [Keeps, perform]
  cases present : client.handles[index]? with
  | none => simpa using balanced
  | some handle =>
    have member := List.mem_of_getElem? present
    simp only [isBalanced_iff, count_unsubscribed, Handle.count_set present, before]
    constructor
    · intro after other same used
      obtain rfl : handle = other := Option.some.inj same
      have own := after handle.token
      rw [mem_outstanding_iff]
      simp only [used, Bool.true_eq_false, false_and, if_true, if_false] at own
      omega
    · intro apart token
      cases used : handle.isUsed with
      | false => simp
      | true =>
        have none := apart handle rfl used
        rw [mem_outstanding_iff] at none
        simp only [Bool.true_eq_false, false_and, if_false]
        by_cases own : handle.token = token
        · subst own
          rw [if_pos rfl]
          omega
        · rw [if_neg own]

/-- From a balanced state a call leads to a balanced one exactly if it keeps the balance. -/
theorem perform_balanced_iff {call : Call World}
    (all : client.session.AllReact Reaction.IsAside) (aside : call.Reacts Reaction.IsAside)
    (balanced : client.IsBalanced) :
    (client.perform steps call).1.IsBalanced ↔ client.Keeps steps call := by
  have unchanged : ∀ {session : Session World},
      session.store.subscribers = client.session.store.subscribers →
      (Client.IsBalanced ⟨session, client.handles⟩ ↔ True) := by
    intro session same
    have kept : Client.IsBalanced ⟨session, client.handles⟩ := by
      rw [IsBalanced, listed, same]
      exact balanced
    exact iff_of_true kept trivial
  cases call with
  | subscribe subscriber => exact subscribe_balanced_iff aside balanced
  | useHandle index => exact useHandle_balanced_iff balanced
  | activate locale messages =>
    exact unchanged (Session.perform_activate_subscribers steps locale messages all)
  | reset =>
    exact unchanged (Session.perform_activate_subscribers steps _ [] all)

theorem perform_aside {call : Call World} (all : client.session.AllReact Reaction.IsAside)
    (aside : call.Reacts Reaction.IsAside) :
    (client.perform steps call).1.session.AllReact Reaction.IsAside := by
  cases call with
  | subscribe subscriber =>
    intro other member
    rw [session_subscribed, Session.subscribe_aside steps client.session aside] at member
    rcases List.mem_append.mp member with former | new
    · exact all other former
    · rw [List.mem_singleton.mp new]
      exact aside
  | useHandle index =>
    rw [perform]
    split
    · exact all.unsubscribe _
    · exact all
  | activate locale messages =>
    have same := Session.perform_activate_subscribers steps locale messages all
    intro other member
    exact all other (same ▸ member)
  | reset =>
    have same := Session.perform_activate_subscribers steps client.session.store.defaultLocale []
      all
    intro other member
    exact all other (same ▸ member)

/-- A handle that is used again changes nothing exactly if its subscriber is not on the list. -/
theorem useHandle_again {index : Nat} {handle : Handle}
    (present : client.handles[index]? = some handle) (used : handle.isUsed = true) :
    (client.perform steps (.useHandle index)).1 = client ↔ handle.token ∉ client.listed := by
  have handles : client.handles.set index ⟨handle.token, true⟩ = client.handles := by
    obtain ⟨within, rfl⟩ := List.getElem?_eq_some_iff.mp present
    rw [← used]
    exact List.set_getElem_self within
  rw [← List.count_eq_zero, count_listed, perform, present]
  dsimp only
  rw [handles]
  constructor
  · intro same
    have counted := count_unsubscribed client.session handle.token handle.token
    have kept : client.session.unsubscribe handle.token = client.session :=
      congrArg Client.session same
    rw [kept, if_pos rfl] at counted
    omega
  · intro absent
    have whole := removeFirst_of_absent absent
    rw [Session.unsubscribe, whole]
    rfl

end Calls

/-! ### Runs -/

section Runs

variable {steps : Nat} {client : Client World} {calls : List (Call World)}

theorem performAll_aside (all : client.session.AllReact Reaction.IsAside)
    (aside : ∀ call ∈ calls, call.Reacts Reaction.IsAside) :
    (client.performAll steps calls).session.AllReact Reaction.IsAside := by
  induction calls generalizing client with
  | nil => exact all
  | cons call rest ih =>
    obtain ⟨own, others⟩ := List.forall_mem_cons.mp aside
    exact ih (perform_aside all own) others

/-- Calls lead from balance to balance all along exactly if each of them keeps it. -/
theorem performAll_balanced_iff (all : client.session.AllReact Reaction.IsAside)
    (aside : ∀ call ∈ calls, call.Reacts Reaction.IsAside) (balanced : client.IsBalanced) :
    (∀ earlier, earlier <+: calls → (client.performAll steps earlier).IsBalanced) ↔
      client.KeepsAll steps calls := by
  induction calls generalizing client with
  | nil =>
    refine iff_of_true (fun earlier within => ?_) trivial
    rw [List.prefix_nil.mp within]
    exact balanced
  | cons call rest ih =>
    obtain ⟨own, others⟩ := List.forall_mem_cons.mp aside
    have step : (client.perform steps call).1.IsBalanced ↔ client.Keeps steps call :=
      perform_balanced_iff all own balanced
    constructor
    · intro always
      have next : (client.perform steps call).1.IsBalanced :=
        always [call] ((List.prefix_cons_inj call).mpr List.nil_prefix)
      refine ⟨step.mp next, (ih (perform_aside all own) others next).mp ?_⟩
      intro earlier within
      exact always (call :: earlier) ((List.prefix_cons_inj call).mpr within)
    · rintro ⟨keeps, later⟩ earlier within
      have next := step.mpr keeps
      have always := (ih (perform_aside all own) others next).mpr later
      cases earlier with
      | nil => exact balanced
      | cons first earlier =>
        obtain ⟨rfl, shorter⟩ := List.cons_prefix_cons.mp within
        exact always earlier shorter

theorem performAll_concat (steps : Nat) (client : Client World) (calls : List (Call World))
    (call : Call World) :
    client.performAll steps (calls ++ [call]) =
      ((client.performAll steps calls).perform steps call).1 := List.foldl_append

end Runs

end Client

open Client

/-- In a run among subscribers who leave the store alone, those on the list are at all times those
whose handles are outstanding, each as often, exactly if all calls keep this balance: subscriptions
return, and no handle is used again while its subscriber has another one. A subscription puts its
subscriber on the list even if it fails; a handle that is used again changes nothing exactly if its
subscriber is not on the list; and an activation tells those on the list in their order, all of them
unless one fails. -/
theorem run_balanced_iff {calls : List (Call World)} (steps : Nat) (defaultLocale : String)
    (messages : Translations) (world : World)
    (aside : ∀ call ∈ calls, call.Reacts Reaction.IsAside) :
    let start := Client.begin defaultLocale messages world
    let client := start.performAll steps
    ((∀ earlier, earlier <+: calls → (client earlier).IsBalanced) ↔ start.KeepsAll steps calls) ∧
    ∀ before call later, calls = before ++ call :: later →
      (∀ subscriber, call = .subscribe subscriber →
        (client (before ++ [call])).listed = (client before).listed ++ [subscriber.token]) ∧
      (∀ index handle, call = .useHandle index → (client before).handles[index]? = some handle →
        handle.isUsed = true →
          (client (before ++ [call]) = client before ↔ handle.token ∉ (client before).listed)) ∧
      ∀ locale messages, call = .activate locale messages → locale.isEmpty = false →
        ∃ told, told <+: (client before).listed ∧
          (client (before ++ [call])).session.deliveries =
            (client before).session.deliveries ++ told.map (State.toldTo ⟨locale, messages⟩) ∧
          (((client before).perform steps call).2 = .ok () → told = (client before).listed) := by
  have nobody : (Client.begin defaultLocale messages world).session.AllReact Reaction.IsAside :=
    Session.begin_allReact _ defaultLocale messages world
  refine ⟨performAll_balanced_iff nobody aside .rfl, ?_⟩
  intro before call later split
  have earlier : ∀ call ∈ before, call.Reacts Reaction.IsAside := by
    intro other member
    exact aside other (by simp [split, member])
  have own : call.Reacts Reaction.IsAside := aside call (by simp [split])
  have all : ((Client.begin defaultLocale messages world).performAll steps
      before).session.AllReact Reaction.IsAside := performAll_aside nobody earlier
  refine ⟨?_, ?_, ?_⟩
  · rintro subscriber rfl
    rw [performAll_concat, listed, session_subscribed, Session.subscribe_aside _ _ own,
      List.map_append]
    rfl
  · rintro index handle rfl present used
    rw [performAll_concat]
    exact useHandle_again present used
  · rintro locale messages rfl given
    obtain ⟨told, within, -, deliveries, whole⟩ :=
      Session.activate_aside steps messages given all
    refine ⟨told.map Subscriber.token, within.map _, ?_, ?_⟩
    · rw [performAll_concat, List.map_map]
      exact deliveries
    · intro returned
      rw [whole (Session.returned_of_map returned)]
      rfl

/-- One subscriber comes twice, refuses Japanese, and goes by each of its handles; the second one is
used once more in the end. -/
def sharedRun : List (Call Unit) :=
  [.subscribe refuser, .subscribe refuser, .activate "ja" [], .useHandle 0, .activate "fr" [],
    .useHandle 1, .useHandle 1]

/-- The list and the handles of the one subscriber stay in balance, although it fails in between, and
French is told to the subscription that is left. -/
theorem run_balanced_shared :
    (∀ earlier, earlier <+: sharedRun →
      ((Client.begin "en" [] ()).performAll 9 earlier).IsBalanced) ∧
    ((Client.begin "en" [] ()).performAll 9 (sharedRun.take 4)).listed = [2] ∧
    ((Client.begin "en" [] ()).performAll 9 (sharedRun.take 5)).session.deliveries =
      ((Client.begin "en" [] ()).performAll 9 (sharedRun.take 4)).session.deliveries ++
        [⟨2, "fr", ⟨"fr", []⟩⟩] := by
  have aside : refuser.Reacts Reaction.IsAside := by
    intro locale
    rw [refuser]
    dsimp only
    split
    · exact .fail .refused
    · exact .finish
  have reacts : ∀ call ∈ sharedRun, call.Reacts Reaction.IsAside := by
    intro call member
    simp only [sharedRun, List.mem_cons, List.not_mem_nil, or_false] at member
    rcases member with rfl | rfl | rfl | rfl | rfl | rfl | rfl
    · exact aside
    · exact aside
    all_goals trivial
  obtain ⟨balanced, each⟩ := run_balanced_iff 9 "en" [] () reacts
  have keeps : (Client.begin "en" [] ()).KeepsAll 9 sharedRun :=
    ⟨rfl, rfl, trivial, by decide, trivial, by decide, by decide, trivial⟩
  obtain ⟨-, -, tells⟩ := each (sharedRun.take 4) (.activate "fr" []) _ rfl
  obtain ⟨told, -, deliveries, whole⟩ := tells "fr" [] rfl rfl
  have listed : ((Client.begin "en" [] ()).performAll 9 (sharedRun.take 4)).listed = [2] := rfl
  refine ⟨balanced.mpr keeps, listed, ?_⟩
  rw [whole rfl, listed] at deliveries
  exact deliveries

/-- A subscriber that fails at once stays on the list without a handle, and of two subscriptions of
one subscriber a single handle ends both. -/
theorem run_unbalanced :
    ((Client.begin "ja" [] ()).perform 9 (.subscribe refuser)).2 = .error .refused ∧
    ((Client.begin "ja" [] ()).performAll 9 [.subscribe refuser]).listed = [2] ∧
    ¬ ((Client.begin "ja" [] ()).performAll 9 [.subscribe refuser]).IsBalanced ∧
    ((Client.begin "en" [] ()).performAll 9
      [.subscribe listener, .subscribe listener, .useHandle 0]).listed = [1] ∧
    ((Client.begin "en" [] ()).performAll 9
      [.subscribe listener, .subscribe listener, .useHandle 0, .useHandle 0]).listed = [] ∧
    ¬ ((Client.begin "en" [] ()).performAll 9
      [.subscribe listener, .subscribe listener, .useHandle 0, .useHandle 0]).IsBalanced := by
  refine ⟨rfl, rfl, ?_, rfl, rfl, ?_⟩
  · intro balanced
    have same : [2].length = ([] : List Nat).length := balanced.length_eq
    cases same
  · intro balanced
    have same : ([] : List Nat).length = [1].length := balanced.length_eq
    cases same

end Phrasebook.Locale
