import DeviceSession.Proofs.Run.Account

/-
  What a connection keeps while nothing goes wrong.

  Requests go by their numbers: the first ones have been
  taken, and of those the first ones have been answered, each
  once.  Everything else is untouched.

  Key definitions include:
    * `Connection.Keeps`
    * `Connection.conclude`

  Main declarations:
    * `Connection.Keeps.submit`
    * `Connection.Keeps.take`
    * `Connection.Keeps.conclude`
-/

------------------------------------------------------------
-- Books
------------------------------------------------------------

namespace DeviceSession

/- A slot of which the caller waits, with its answer. -/
def Slot.holding (y? : Option Response) : Slot where
  answers := (y?.map Except.ok).toList

namespace Connection

/-
  Of the requests `rs`, those in `taken` have left the queue,
  and the first ones have their answers.
-/
structure Keeps
    (settings : Settings)
    (rs taken : List Request)
    (answers : List Response)
    (k : Connection) : Prop where
  settings_eq : k.settings = settings
  closing_eq : k.closing = false
  queue_eq : rs = taken ++ k.queue
  id_eq : ∀ (i : Nat) (r : Request),
    rs[i]? = some r → r.id = i
  timeout_ne : ∀ r ∈ rs, r.options.timeout ≠ some 0
  slots_eq : ∀ i : Nat,
    k.slots[i]? =
      if i < rs.length then some (.holding answers[i]?)
      else none
  events_eq :
    k.events.toList.map Prod.snd =
      if k.state = .connecting then [] else [.connected 1]

section

variable {settings : Settings} {rs taken : List Request}
variable {answers : List Response} {k : Connection}

theorem keeps_start (settings : Settings) :
    Keeps settings [] [] [] { settings } where
  settings_eq := rfl
  closing_eq := rfl
  queue_eq := rfl
  id_eq := nofun
  timeout_ne _ hMem := absurd hMem List.not_mem_nil
  slots_eq _ := rfl
  events_eq := rfl

theorem Keeps.size_slots
    (hKeeps : k.Keeps settings rs taken answers) :
    k.slots.size = rs.length := by
  have hNone := hKeeps.slots_eq rs.length
  rw [if_neg (Nat.lt_irrefl _), Array.getElem?_eq_none_iff]
    at hNone
  apply Nat.le_antisymm hNone
  apply Nat.le_of_not_lt
  intro hLess
  have hSome := hKeeps.slots_eq k.slots.size
  rw [if_pos hLess, Array.getElem?_size] at hSome
  cases hSome

/- The next request to be answered has the next number. -/
theorem Keeps.id_of_append
    {served : List Request}
    {r : Request}
    (hKeeps : k.Keeps settings rs (served ++ [r]) answers) :
    r.id = served.length := by
  apply hKeeps.id_eq
  rw [hKeeps.queue_eq, List.append_assoc,
    List.getElem?_append_right (Nat.le_refl _), Nat.sub_self]
  rfl

/- A request that there is room for goes behind the others. -/
theorem Keeps.submit
    (hKeeps : k.Keeps settings rs taken answers)
    (hAnswers : answers.length ≤ rs.length)
    (hState : k.state ≠ .terminated)
    (hRoom : k.queue.length < queueDepth)
    (a : Apdu)
    {o : RequestOptions}
    (hTimeout : o.timeout ≠ some 0) :
    (k.submit a o).1 = .ok rs.length ∧
      (k.submit a o).2.Keeps settings
        (rs ++ [⟨rs.length, a, o⟩]) taken answers := by
  rw [submit_of_room hState hRoom, hKeeps.size_slots]
  refine ⟨rfl, ⟨hKeeps.settings_eq, hKeeps.closing_eq, ?_, ?_,
    ?_, ?_, hKeeps.events_eq⟩⟩
  · rw [hKeeps.queue_eq, List.append_assoc]
  · intro i r hGet
    rw [List.getElem?_append] at hGet
    split at hGet
    · exact hKeeps.id_eq i r hGet
    · rename_i hLate
      have hZero : i - rs.length = 0 := by
        have hSome := List.getElem?_eq_some_iff.mp hGet
        rcases hSome with ⟨hIndex, -⟩
        exact Nat.lt_one_iff.mp hIndex
      rw [hZero] at hGet
      cases hGet
      exact (by omega : rs.length = i)
  · intro r hMem
    rcases List.mem_append.mp hMem with hOld | hNew
    · exact hKeeps.timeout_ne r hOld
    · rw [List.mem_singleton] at hNew
      rw [hNew]
      exact hTimeout
  · intro i
    rw [Array.getElem?_push, hKeeps.size_slots,
      hKeeps.slots_eq, List.length_append,
      List.length_singleton]
    by_cases hNew : i = rs.length
    · rw [if_pos hNew, if_pos (by omega),
        List.getElem?_eq_none (by omega)]
      rfl
    · rw [if_neg hNew]
      by_cases hOld : i < rs.length
      · rw [if_pos hOld, if_pos (by omega)]
      · rw [if_neg hOld, if_neg (by omega)]

/- The oldest request leaves the queue. -/
theorem Keeps.take
    {r : Request}
    {rest : List Request}
    (hKeeps : k.Keeps settings rs taken answers)
    (hQueue : k.queue = r :: rest) :
    Keeps settings rs (taken ++ [r]) answers
        { k with queue := rest } := by
  refine { hKeeps with queue_eq := ?_ }
  rw [hKeeps.queue_eq, hQueue, List.append_assoc]
  rfl

/- No caller goes away. -/
theorem Keeps.callerGone_eq
    {r : Request}
    (hKeeps : k.Keeps settings rs taken answers)
    (hMem : r ∈ rs) :
    k.callerGone r = false := by
  rcases List.getElem?_of_mem hMem with ⟨i, hGet⟩
  have hLess := (List.getElem?_eq_some_iff.mp hGet).1
  rw [callerGone, hKeeps.id_eq i r hGet, hKeeps.slots_eq,
    if_pos hLess]
  rfl

/- The slots hold the answers, each once. -/
theorem Keeps.answersTo_eq
    (hKeeps : k.Keeps settings rs taken answers)
    (hAnswers : answers.length ≤ rs.length)
    (i : Nat) :
    k.answersTo i = (answers[i]?.map Except.ok).toList := by
  rw [answersTo, hKeeps.slots_eq]
  by_cases hLess : i < rs.length
  · rw [if_pos hLess]
    rfl
  · rw [if_neg hLess, List.getElem?_eq_none (by omega)]
    rfl

/- The first link comes up. -/
theorem Keeps.connect
    (hKeeps : k.Keeps settings rs taken answers)
    (hState : k.state = .connecting)
    (now : Nat) :
    Keeps settings rs taken answers
      ({ k with state := .connected 1 }.tell now
        (.connected 1)) := by
  have hEvents := hKeeps.events_eq
  rw [if_pos hState] at hEvents
  refine { hKeeps with events_eq := ?_ }
  simp [tell, hEvents]

end

------------------------------------------------------------
-- Ends of Exchanges
------------------------------------------------------------

/- A link that is in doubt after some responses. -/
def stateOwing (owes : Bool) : Lifecycle :=
  if owes then .awaitingDisconnection 1 else .connected 1

/- The end of an exchange for a request, or of a check. -/
def conclude
    (k : Connection)
    (r? : Option Request)
    (y : Response) : Connection :=
  let k := match r? with
    | some r => k.answer r (.ok y)
    | none => k
  { k with
    state := stateOwing
      (r?.any fun r => Driver.triggers r y) }

theorem stateOwing_ne_connecting (owes : Bool) :
    stateOwing owes ≠ .connecting := by
  cases owes <;> exact nofun

/- An answer goes to the first request without one. -/
theorem Keeps.conclude
    {settings : Settings}
    {rs served : List Request}
    {answers : List Response}
    {k : Connection}
    {r? : Option Request}
    (hKeeps :
      k.Keeps settings rs (served ++ r?.toList) answers)
    (hServed : answers.length = served.length)
    (hState : k.state ≠ .connecting)
    (y : Response) :
    (k.conclude r? y).Keeps settings rs
      (served ++ r?.toList)
      (answers ++ (r?.map fun _ => y).toList) := by
  have hEvents :
      k.events.toList.map Prod.snd = [.connected 1] := by
    rw [hKeeps.events_eq, if_neg hState]
  have hState' (owes : Bool) :
      k.events.toList.map Prod.snd =
        if stateOwing owes = .connecting then []
        else [.connected 1] := by
    rw [hEvents, if_neg (stateOwing_ne_connecting owes)]
  cases r? with
  | none =>
      refine { hKeeps with
        events_eq := hState' false
        slots_eq := ?_ }
      intro i
      rw [Option.map_none, Option.toList_none, List.append_nil]
      exact hKeeps.slots_eq i
  | some r =>
      have hId := hKeeps.id_of_append
      refine { hKeeps with
        events_eq := hState' (Driver.triggers r y)
        slots_eq := ?_ }
      intro i
      have hSlots :
          (k.conclude (some r) y).slots =
            k.slots.modify r.id fun s =>
              { s with answers := .ok y :: s.answers } := rfl
      rw [hSlots, Array.getElem?_modify, hKeeps.slots_eq, hId,
        ← hServed]
      by_cases hHere : answers.length = i
      · subst hHere
        have hLess : answers.length < rs.length := by
          rw [hKeeps.queue_eq, hServed]
          simp
        rw [if_pos rfl, if_pos hLess, if_pos hLess]
        simp [Slot.holding]
      · have hSame :
            (answers ++ [y])[i]? = answers[i]? := by
          by_cases hOld : i < answers.length
          · exact List.getElem?_append_left hOld
          · have hLength :
                (answers ++ [y]).length = answers.length + 1 :=
              List.length_append
            rw [List.getElem?_eq_none (by omega),
              List.getElem?_eq_none (by omega)]
        rw [if_neg hHere, Option.map_some, Option.toList_some,
          hSame]

end Connection

end DeviceSession
