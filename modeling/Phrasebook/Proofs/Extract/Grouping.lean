import Mathlib.Data.List.Induction
import Phrasebook.Extract.Record

set_option autoImplicit false

/-!
The messages of records: each id once, in the order in which the ids come first, with everything that
its records say. Further records extend the messages that are there and add those of new ids.
-/
namespace Phrasebook.Extract

open Text (CodePoints)

/-- The records of an id. -/
def recordsOf (id : String) (records : List Record) : List Record :=
  records.filter (·.id = id)

theorem recordsOf_append (id : String) (records : List Record) (record : Record) :
    recordsOf id (records ++ [record]) =
      recordsOf id records ++ if record.id = id then [record] else [] := by
  rw [recordsOf, List.filter_append, ← recordsOf]
  by_cases same : record.id = id <;> simp [same]

theorem recordsOf_cons_self (record : Record) (records : List Record) :
    recordsOf record.id (record :: records) = record :: recordsOf record.id records := by
  simp [recordsOf]

/-- Records of another id do not count. -/
theorem recordsOf_others {id : String} {record : Record} (records : List Record)
    (apart : id ≠ record.id) :
    recordsOf id (records.filter (·.id ≠ record.id)) = recordsOf id (record :: records) := by
  have front : recordsOf id (record :: records) = recordsOf id records := by
    simp [recordsOf, Ne.symm apart]
  rw [front, recordsOf, recordsOf, List.filter_filter]
  apply List.filter_congr
  intro other _
  by_cases own : other.id = id
  · simp [own, apart]
  · simp [own]

/-! ### One more record -/

/-- A message with what further records of it say. -/
def UniqueMessage.extend (message : UniqueMessage) (records : List Record) : UniqueMessage :=
  ⟨message.id, message.message, message.context,
    message.comment.or (records.findSome? (·.comment)),
    message.origins ++ records.filterMap (·.origin)⟩

@[simp] theorem UniqueMessage.extend_id (message : UniqueMessage) (records : List Record) :
    (message.extend records).id = message.id := rfl

/-- What a first record and the others of its id say. -/
theorem UniqueMessage.ofRecord_extend (first : Record) (others : List Record) :
    (ofRecord first).extend others =
      ⟨first.id, first.message, first.context, (first :: others).findSome? (·.comment),
        (first :: others).filterMap (·.origin)⟩ := by
  have comment : first.comment.or (others.findSome? (·.comment)) =
      (first :: others).findSome? (·.comment) := by
    cases said : first.comment <;> simp [said]
  have origins : first.origin.toList ++ others.filterMap (·.origin) =
      (first :: others).filterMap (·.origin) := by
    cases placed : first.origin <;> simp [placed]
  rw [← comment, ← origins]
  rfl

theorem UniqueMessage.extend_nil (message : UniqueMessage) : message.extend [] = message := by
  simp [extend]

theorem UniqueMessage.extend_add (message : UniqueMessage) (records : List Record)
    (record : Record) : (message.extend records).add record = message.extend (records ++ [record]) := by
  have comment : [record].findSome? (·.comment) = record.comment := by
    cases said : record.comment <;> simp [said]
  have origins : [record].filterMap (·.origin) = record.origin.toList := by
    cases placed : record.origin <;> simp [placed]
  rw [add, extend, extend, List.findSome?_append, List.filterMap_append, comment, origins,
    Option.or_assoc, List.append_assoc]

section Step

variable {messages : List UniqueMessage} {record : Record}

theorem addRecord_append_of_mem (known : record.id ∈ messages.map (·.id))
    (others : List UniqueMessage) :
    addRecord (messages ++ others) record = addRecord messages record ++ others := by
  induction messages with
  | nil => simp at known
  | cons message messages ih =>
    rw [List.cons_append, addRecord, addRecord]
    by_cases same : message.id = record.id
    · rw [if_pos same, if_pos same, List.cons_append]
    · have later : record.id ∈ messages.map (·.id) := by simpa [Ne.symm same] using known
      rw [if_neg same, if_neg same, ih later, List.cons_append]

theorem addRecord_append_of_not_mem (fresh : record.id ∉ messages.map (·.id))
    (others : List UniqueMessage) :
    addRecord (messages ++ others) record = messages ++ addRecord others record := by
  induction messages with
  | nil => rfl
  | cons message messages ih =>
    simp only [List.map_cons, List.mem_cons, not_or] at fresh
    rw [List.cons_append, addRecord, if_neg (Ne.symm fresh.1), ih fresh.2, List.cons_append]

/-- A record is added to the message of its id, and to no other. -/
theorem addRecord_of_mem (once : (messages.map (·.id)).Nodup)
    (known : record.id ∈ messages.map (·.id)) :
    addRecord messages record =
      messages.map fun message => if message.id = record.id then message.add record else message := by
  induction messages with
  | nil => simp at known
  | cons message messages ih =>
    rw [List.map_cons, List.nodup_cons] at once
    rw [addRecord, List.map_cons]
    by_cases same : message.id = record.id
    · have untouched : ∀ other ∈ messages,
          (if other.id = record.id then other.add record else other) = id other := by
        intro other member
        refine if_neg fun equal => once.1 ?_
        rw [same, ← equal]
        exact List.mem_map_of_mem member
      rw [if_pos same, if_pos same, List.map_congr_left untouched, List.map_id]
    · have later : record.id ∈ messages.map (·.id) := by simpa [Ne.symm same] using known
      rw [if_neg same, if_neg same, ih once.2 later]

end Step

/-! ### All records -/

theorem uniqueMessages_concat (records : List Record) (record : Record) :
    uniqueMessages (records ++ [record]) = addRecord (uniqueMessages records) record :=
  List.foldl_append

/-- Records extend the messages that are there, and those of new ids come behind. -/
theorem foldl_addRecord {messages : List UniqueMessage} (once : (messages.map (·.id)).Nodup)
    (records : List Record) :
    records.foldl addRecord messages =
      messages.map (fun message => message.extend (recordsOf message.id records)) ++
        uniqueMessages (records.filter (·.id ∉ messages.map (·.id))) := by
  induction records using List.reverseRecOn with
  | nil =>
    have same : messages.map (fun message => message.extend (recordsOf message.id [])) =
        messages.map id := List.map_congr_left fun message _ => message.extend_nil
    rw [same, List.map_id]
    exact (List.append_nil messages).symm
  | append_singleton records record ih =>
    have ids : (messages.map fun message => message.extend (recordsOf message.id records)).map
        (·.id) = messages.map (·.id) := by
      rw [List.map_map]
      rfl
    rw [List.foldl_append, List.foldl_cons, List.foldl_nil, ih, List.filter_append]
    by_cases known : record.id ∈ messages.map (·.id)
    · have added : ∀ message ∈ messages,
          (if (message.extend (recordsOf message.id records)).id = record.id
            then (message.extend (recordsOf message.id records)).add record
            else message.extend (recordsOf message.id records)) =
          message.extend (recordsOf message.id (records ++ [record])) := by
        intro message _
        rw [UniqueMessage.extend_id, recordsOf_append]
        by_cases own : message.id = record.id
        · rw [if_pos own, if_pos own.symm, UniqueMessage.extend_add]
        · rw [if_neg own, if_neg (Ne.symm own), List.append_nil]
      have old : [record].filter (·.id ∉ messages.map (·.id)) = [] := by simpa using known
      rw [addRecord_append_of_mem (ids.symm ▸ known), addRecord_of_mem (ids.symm ▸ once)
        (ids.symm ▸ known), List.map_map, old, List.append_nil]
      congr 1
      exact List.map_congr_left added
    · have kept : ∀ message ∈ messages, message.extend (recordsOf message.id records) =
          message.extend (recordsOf message.id (records ++ [record])) := by
        intro message member
        have apart : record.id ≠ message.id := by
          intro same
          exact known (same ▸ List.mem_map_of_mem member)
        rw [recordsOf_append, if_neg apart, List.append_nil]
      have new : [record].filter (·.id ∉ messages.map (·.id)) = [record] := by simpa using known
      rw [addRecord_append_of_not_mem (ids.symm ▸ known), new, uniqueMessages_concat,
        List.map_congr_left kept]

/-- The first record has its message first, with all that the records of its id say. -/
theorem uniqueMessages_cons (record : Record) (records : List Record) :
    uniqueMessages (record :: records) =
      (UniqueMessage.ofRecord record).extend (recordsOf record.id records) ::
        uniqueMessages (records.filter (·.id ≠ record.id)) := by
  have once : ([UniqueMessage.ofRecord record].map (·.id)).Nodup := by simp
  have others : records.filter (·.id ∉ [UniqueMessage.ofRecord record].map (·.id)) =
      records.filter (·.id ≠ record.id) := by
    simp [UniqueMessage.ofRecord]
  rw [← others]
  exact foldl_addRecord once records

/-- Induction over records that takes all records of the first id away at once. -/
theorem induction_on_ids {motive : List Record → Prop} (nil : motive [])
    (cons : ∀ record records, motive (records.filter (·.id ≠ record.id)) →
      motive (record :: records)) (records : List Record) : motive records := by
  induction size : records.length using Nat.strongRecOn generalizing records with
  | ind size ih =>
    cases records with
    | nil => exact nil
    | cons record records =>
      have shorter : (records.filter (·.id ≠ record.id)).length ≤ records.length :=
        List.length_filter_le ..
      rw [List.length_cons] at size
      exact cons record records (ih _ (by omega) _ rfl)

/-- The ids are those of the records, in the order in which they come first. -/
theorem ids_uniqueMessages (records : List Record) :
    (uniqueMessages records).map (·.id) = (records.map (·.id)).eraseDups := by
  induction records using induction_on_ids with
  | nil => rfl
  | cons record records ih =>
    have others : (records.map (·.id)).filter (fun id => !id == record.id) =
        (records.filter (·.id ≠ record.id)).map (·.id) := by
      rw [List.filter_map]
      congr 2
      funext other
      simp [beq_eq_decide]
    rw [uniqueMessages_cons, List.map_cons, ih, List.map_cons, List.eraseDups_cons, others]
    rfl

theorem mem_ids_uniqueMessages {id : String} {records : List Record} :
    id ∈ (uniqueMessages records).map (·.id) ↔ id ∈ records.map (·.id) := by
  rw [ids_uniqueMessages, List.mem_eraseDups]

theorem nodup_ids_uniqueMessages (records : List Record) :
    ((uniqueMessages records).map (·.id)).Nodup := by
  induction records using induction_on_ids with
  | nil => exact List.nodup_nil
  | cons record records ih =>
    rw [uniqueMessages_cons, List.map_cons, List.nodup_cons, mem_ids_uniqueMessages]
    refine ⟨?_, ih⟩
    simp [UniqueMessage.ofRecord]

/-- The message of an id is that of its first record, with what the others say. -/
theorem mem_uniqueMessages {records : List Record} {message : UniqueMessage}
    (member : message ∈ uniqueMessages records) :
    ∃ first others, recordsOf message.id records = first :: others ∧
      message = (UniqueMessage.ofRecord first).extend others := by
  induction records using induction_on_ids with
  | nil => cases member
  | cons record records ih =>
    rw [uniqueMessages_cons] at member
    rcases List.mem_cons.mp member with rfl | later
    · exact ⟨record, recordsOf record.id records, recordsOf_cons_self record records, rfl⟩
    · have apart : message.id ≠ record.id := by
        have listed := mem_ids_uniqueMessages.mp (List.mem_map_of_mem (f := (·.id)) later)
        obtain ⟨other, kept, same⟩ := List.mem_map.mp listed
        rw [← same]
        simpa using (List.mem_filter.mp kept).2
      obtain ⟨first, others, own, is⟩ := ih later
      exact ⟨first, others, by rw [← own, recordsOf_others records apart], is⟩

/-- No origin is lost, and none comes twice. -/
theorem origins_perm (records : List Record) :
    ((uniqueMessages records).flatMap (·.origins)).Perm (records.filterMap (·.origin)) := by
  induction records using induction_on_ids with
  | nil => exact List.Perm.refl []
  | cons record records ih =>
    have parted : (recordsOf record.id records ++ records.filter (·.id ≠ record.id)).Perm records := by
      simpa [recordsOf] using List.filter_append_perm (·.id = record.id) records
    have front : (record :: records).filterMap (·.origin) =
        record.origin.toList ++ records.filterMap (·.origin) := by
      cases placed : record.origin <;> simp [placed]
    have own : ((UniqueMessage.ofRecord record).extend (recordsOf record.id records)).origins =
        record.origin.toList ++ (recordsOf record.id records).filterMap (·.origin) := rfl
    rw [uniqueMessages_cons, List.flatMap_cons, front, own, List.append_assoc]
    apply List.Perm.append_left
    have later := ih.append_left ((recordsOf record.id records).filterMap (·.origin))
    rw [← List.filterMap_append] at later
    exact later.trans (parted.filterMap _)

theorem uniqueMessages_append (records more : List Record) :
    uniqueMessages (records ++ more) =
      (uniqueMessages records).map (fun message => message.extend (recordsOf message.id more)) ++
        uniqueMessages (more.filter (·.id ∉ records.map (·.id))) := by
  have joined : uniqueMessages (records ++ more) = more.foldl addRecord (uniqueMessages records) :=
    List.foldl_append
  rw [joined, foldl_addRecord (nodup_ids_uniqueMessages records)]
  simp only [mem_ids_uniqueMessages]

/-- There is one message for each id, in the order in which the ids come first. It has text and
context of the first record of its id, the first comment of one of them, and the origins of all of
them in their order. No origin is lost, and further records extend the messages that are there before
they add those of new ids. -/
theorem uniqueMessages_groups (records : List Record) :
    (uniqueMessages records).map (·.id) = (records.map (·.id)).eraseDups ∧
    (∀ message ∈ uniqueMessages records, ∃ first others,
      recordsOf message.id records = first :: others ∧
      message.message = first.message ∧ message.context = first.context ∧
      message.comment = (first :: others).findSome? (·.comment) ∧
      message.origins = (first :: others).filterMap (·.origin)) ∧
    ((uniqueMessages records).flatMap (·.origins)).length = records.countP (·.origin.isSome) ∧
    ∀ more, uniqueMessages (records ++ more) =
      (uniqueMessages records).map (fun message => message.extend (recordsOf message.id more)) ++
        uniqueMessages (more.filter (·.id ∉ records.map (·.id))) := by
  refine ⟨ids_uniqueMessages records, ?_, ?_, uniqueMessages_append records⟩
  · intro message member
    obtain ⟨first, others, own, is⟩ := mem_uniqueMessages member
    rw [UniqueMessage.ofRecord_extend] at is
    cases is
    exact ⟨first, others, own, rfl, rfl, rfl, rfl⟩
  · have counted := (origins_perm records).length_eq
    rwa [List.length_filterMap_eq_countP] at counted

/-! ### What messages say -/

/-- A message says what the records of its id say. -/
structure Gathers (records : List Record) (message : UniqueMessage) : Prop where
  stated : ∃ record ∈ records, record.id = message.id ∧ record.message = message.message ∧
    record.context = message.context
  comment : message.comment = (recordsOf message.id records).findSome? (·.comment)
  origins : message.origins = (recordsOf message.id records).filterMap (·.origin)

/-- The messages of the records that have been seen. -/
structure Grouped (records : List Record) (messages : List UniqueMessage) : Prop where
  once : (messages.map (·.id)).Nodup
  covered : ∀ record ∈ records, record.id ∈ messages.map (·.id)
  gathered : ∀ message ∈ messages, Gathers records message

/-- The messages of records have each id once, and say what the records of the id say. -/
theorem uniqueMessages_grouped (records : List Record) :
    Grouped records (uniqueMessages records) where
  once := nodup_ids_uniqueMessages records
  covered record member := mem_ids_uniqueMessages.mpr (List.mem_map_of_mem member)
  gathered message member := by
    obtain ⟨first, others, own, is⟩ := mem_uniqueMessages member
    rw [UniqueMessage.ofRecord_extend] at is
    have stated : first ∈ records := by
      have among : first ∈ recordsOf message.id records := own ▸ List.mem_cons_self
      exact (List.mem_filter.mp among).1
    refine ⟨⟨first, stated, ?_⟩, ?_, ?_⟩
    · rw [is]
      exact ⟨rfl, rfl, rfl⟩
    · rw [own, is]
    · rw [own, is]

end Phrasebook.Extract
