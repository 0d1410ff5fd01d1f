import Made.Agents.Roster
import Made.Delivery.Ledger
import Made.Library.OrderedSets
import Made.Properties.Interventions

/-!
# Questions and their routes

A question that was sealed is offered to the hosts that can answer it.  Who may answer is decided
by the definition and the target; the routes of a question to the table are read off the first page
of the roster.  Routes whose deliveries have one identity share one delivery in the ledger.
-/

namespace Made

open Outcome HostDeliveryTarget

/-! ## Offers -/

namespace CeremonyAgentStatus

variable (status : CeremonyAgentStatus)

/-- What a host said about itself, while it is reachable and at work. -/
def isLive : Bool :=
  status.source = .hostReport && status.liveness ≠ .unreachable &&
    status.executionStatus ≠ .finished

def route : HostDeliveryTarget :=
  .agentExecution status.agentExecutionId status.hostAgentIncarnation

end CeremonyAgentStatus

/-- `list` with no cursor, any status and a limit of 100. -/
def InMemoryCeremonyAgentStatus.firstPage (roster : InMemoryCeremonyAgentStatus)
    (ceremonyId : CeremonyId) : List CeremonyAgentStatus :=
  ((roster.entries.inOrder.filter (·.ceremonyId = ceremonyId)).insertionSort fun a b =>
    (compare a.agentExecutionId b.agentExecutionId).then
      (compare a.reportSequence b.reportSequence) ≠ .gt).take 100

def DeliveryRecipient.exactTarget (recipient : DeliveryRecipient) : HostDeliveryTarget :=
  .agentExecution recipient.agentExecutionId recipient.incarnation

namespace InterventionDeliverySubscriber

variable (roster : InMemoryCeremonyAgentStatus) (item : HostDeliveryItem)
  (target : CeremonyInterventionTarget)

def liveAgents : List CeremonyAgentStatus := (roster.firstPage item.ceremonyId).filter (·.isLive)

def rolesAtTheTable : List RoleId := (liveAgents roster item).map (·.roleId)

/-- The roles a question is put to; for the table, those seen at work. -/
def seats : List RoleId :=
  match target with
  | .roles roleIds => OrderedSets.listed roleIds
  | .table | .agentExecution _ => rolesAtTheTable roster item

def targetsOf : List HostDeliveryTarget :=
  match target.exactRecipient with
  | some recipient => [recipient.exactTarget]
  | none => (seats roster item target).map .role ++
      ((liveAgents roster item).filter fun agent =>
        (seats roster item target).contains agent.roleId).map (·.route)

/-- One destination after the other, until one has no identity; the ledger keeps what it holds. -/
def offerEach (policy : HostDeliveryPolicy) (at_ : OffsetDateTime) :
    List HostDeliveryTarget → InMemoryHostDeliveryLedger → Result Unit × InMemoryHostDeliveryLedger
  | [], ledger => (.ok (), ledger)
  | target :: rest, ledger =>
    match HostDeliveryRecord.queued item target policy at_ with
    | .error fault => (.error fault, ledger)
    | .ok record =>
      match InMemoryHostDeliveryLedger.store.enqueue ledger record with
      | (.error fault, ledger) => (.error fault, ledger)
      | (.ok _, ledger) => offerEach policy at_ rest ledger

/-- `hostPolicy` reads the host's part of the sealed terms. -/
def offer (ledger : InMemoryHostDeliveryLedger)
    (hostPolicy : InterventionDeliveryPolicy → HostDeliveryPolicy) (ceremonyId : CeremonyId)
    (intervention : CeremonyIntervention) (at_ : OffsetDateTime) :
    Result Unit × InMemoryHostDeliveryLedger :=
  let item := .intervention ceremonyId intervention.id
  offerEach item (intervention.delivery.elim .pull hostPolicy) at_
    (targetsOf roster item intervention.target) ledger

/-! ## Routes that are owed -/

/-- A role whose answer would be accepted. -/
def MayAnswer (d : CeremonyDefinition) (t : CeremonyInstance)
    (interventionId : CeremonyInterventionId) (roleId : RoleId) : Prop :=
  ∃ answer : RespondToIntervention, answer.interventionId = interventionId ∧
    answer.roleId = roleId ∧ (t.decide d (.respondToIntervention answer)).isOk = true

variable (mayAnswer : RoleId → Prop)

/-- An execution that could answer, wherever the roster lists it. -/
def Working (status : CeremonyAgentStatus) : Prop :=
  roster.entries[(item.ceremonyId, status.agentExecutionId)]? = some status ∧
    status.isLive = true ∧ mayAnswer status.roleId

/-- The named execution; or the seat of every role that may answer and every live agent of it. -/
def Owed (route : HostDeliveryTarget) : Prop :=
  match target.exactRecipient with
  | some recipient => route = recipient.exactTarget
  | none => (∃ roleId, mayAnswer roleId ∧ route = .role roleId) ∨
      ∃ status, Working roster item mayAnswer status ∧ route = status.route

/-- A role the question is put to: it is named, or the first page shows a live agent of it. -/
def Seated (roleId : RoleId) : Prop :=
  match target with
  | .roles roleIds => roleId ∈ roleIds
  | .table | .agentExecution _ =>
    ∃ agent ∈ roster.firstPage item.ceremonyId, agent.isLive = true ∧ agent.roleId = roleId

/-- The named execution; or every seat, and every live agent of it on the first page. -/
def Offered (route : HostDeliveryTarget) : Prop :=
  match target.exactRecipient with
  | some recipient => route = recipient.exactTarget
  | none => (∃ roleId, Seated roster item target roleId ∧ route = .role roleId) ∨
      ∃ agent ∈ roster.firstPage item.ceremonyId, agent.isLive = true ∧
        Seated roster item target agent.roleId ∧ route = agent.route

variable (ledger : InMemoryHostDeliveryLedger)

/-- The question can be pulled on the route. -/
def Held (route : HostDeliveryTarget) : Prop :=
  ∃ id stored, item.deliveryId route = .ok id ∧ ledger.inner[id]? = some stored ∧
    stored.record.item = item ∧ stored.record.target = route ∧ stored.record.state = .queued

/-- What is owed is opened or there already; what is opened has an identity, no two routes the same,
and under it the ledger holds nothing but this question on this route. -/
structure Reached : Prop where
  owed : ∀ route, Owed roster item target mayAnswer route →
    Offered roster item target route ∨ Held item ledger route
  spelled : ∀ route, Offered roster item target route → ∃ id, item.deliveryId route = .ok id
  own : ∀ route route', Offered roster item target route → Offered roster item target route' →
    item.deliveryId route = item.deliveryId route' → route = route'
  free : ∀ route id, Offered roster item target route → item.deliveryId route = .ok id →
    ledger.inner[id]? = none ∨ Held item ledger route

variable {roster item target mayAnswer ledger} {route : HostDeliveryTarget}
  {policy : HostDeliveryPolicy} {at_ : OffsetDateTime}

theorem mem_targetsOf :
    route ∈ targetsOf roster item target ↔ Offered roster item target route := by
  have hseats : ∀ roleId, roleId ∈ seats roster item target ↔ Seated roster item target roleId := by
    intro roleId
    cases target <;> simp [seats, Seated, rolesAtTheTable, liveAgents, and_assoc]
  cases hexact : target.exactRecipient with
  | some recipient => simp [targetsOf, Offered, hexact]
  | none =>
    simp only [targetsOf, Offered, hexact, List.mem_append, List.mem_map, List.mem_filter,
      List.contains_iff_mem, hseats, liveAgents, and_assoc, @eq_comm _ route]

theorem enqueue_eq (ledger : InMemoryHostDeliveryLedger) (record : HostDeliveryRecord) :
    ∃ outcome next, InMemoryHostDeliveryLedger.store.enqueue ledger record = (.ok outcome, next) ∧
      ∀ id, next.inner[id]? = if id = record.id then
        some (ledger.inner[id]?.getD (.new record)) else ledger.inner[id]? := by
  cases hread : ledger.inner[record.id]? with
  | some existing =>
    refine ⟨.alreadyQueued existing.record, ledger, ?_, fun id => ?_⟩
    · simp [DeliveryStore.enqueue, InMemoryHostDeliveryLedger.store, hread]
    · split
      · next heq => rw [heq, hread, Option.getD_some]
      · rfl
  | none =>
    refine ⟨.enqueued record, ledger.insert record.id (.new record), ?_, fun id => ?_⟩
    · simp [DeliveryStore.enqueue, DeliveryStore.keep, InMemoryHostDeliveryLedger.store, hread]
    · rw [InMemoryHostDeliveryLedger.insert]
      split
      · next heq => simp [heq, hread]
      · next hne => exact Map.getElem?_insert_of_ne hne

/-- What an offer does to the ledger: it keeps what is there, adds deliveries of the question to the
destinations, and ends well when it has come to all of them. -/
structure Offers (item : HostDeliveryItem) (targets : List HostDeliveryTarget)
    (before : InMemoryHostDeliveryLedger) (done : Result Unit × InMemoryHostDeliveryLedger) :
    Prop where
  kept : ∀ {id : HostDeliveryId} {stored}, before.inner[id]? = some stored →
    done.2.inner[id]? = some stored
  added : ∀ {id : HostDeliveryId} {stored}, done.2.inner[id]? = some stored →
    before.inner[id]? = some stored ∨ stored.record.item = item ∧
      stored.record.target ∈ targets ∧ item.deliveryId stored.record.target = .ok id ∧
        stored.record.state = .queued
  spelled : done.1 = .ok () ↔ ∀ target ∈ targets, ∃ id, item.deliveryId target = .ok id
  reached : done.1 = .ok () → ∀ target ∈ targets, ∀ id, item.deliveryId target = .ok id →
    ∃ stored, done.2.inner[id]? = some stored

theorem offerEach_offers (targets : List HostDeliveryTarget) (ledger : InMemoryHostDeliveryLedger) :
    Offers item targets ledger (offerEach item policy at_ targets ledger) := by
  induction targets generalizing ledger with
  | nil => exact ⟨fun h => h, .inl, by simp [offerEach], nofun⟩
  | cons target rest ih =>
    rw [offerEach, HostDeliveryRecord.queued]
    split
    · next fault hqueued =>
      split at hqueued
      · next hid => exact ⟨fun h => h, .inl, by simp [hid], nofun⟩
      · cases hqueued
    · next record hqueued =>
      split at hqueued
      · cases hqueued
      · next id hid =>
        obtain ⟨outcome, next, henqueued, hnext⟩ := enqueue_eq ledger record
        rw [henqueued]
        cases hqueued
        obtain ⟨kept, added, spelled, reached⟩ := ih next
        refine ⟨fun hstored => kept ?_, fun {otherId} _ hstored => ?_,
          by simpa [hid] using spelled, ?_⟩
        · rw [hnext]
          split <;> simp [hstored]
        · obtain hread | ⟨hitem, hmem, hadded⟩ := added hstored
          · rw [hnext] at hread
            split at hread
            · next heq =>
              cases hold : ledger.inner[otherId]? with
              | some old => exact .inl (by simpa [hold] using hread)
              | none =>
                rw [hold] at hread
                cases hread
                exact .inr ⟨rfl, List.mem_cons_self, heq ▸ hid, rfl⟩
            · exact .inl hread
          · exact .inr ⟨hitem, List.mem_cons_of_mem _ hmem, hadded⟩
        · intro hdone other hother otherId hotherId
          obtain rfl | hother := List.mem_cons.mp hother
          · cases hid.symm.trans hotherId
            exact ⟨_, kept (by rw [hnext, if_pos rfl])⟩
          · exact reached hdone other hother otherId hotherId

section

variable {done : Result Unit × InMemoryHostDeliveryLedger}
  (h : Offers item (targetsOf roster item target) ledger done)
include h

theorem Offers.ends_iff : done.1 = .ok () ↔
    ∀ route, Offered roster item target route → ∃ id, item.deliveryId route = .ok id := by
  simp only [h.spelled, mem_targetsOf]

theorem Offers.held (hheld : Held item ledger route) : Held item done.2 route := by
  obtain ⟨id, stored, hid, hstored, hroute⟩ := hheld
  exact ⟨id, stored, hid, h.kept hstored, hroute⟩

theorem Offers.reached_of_held (hok : done.1 = .ok ()) (hall : ∀ route,
      Owed roster item target mayAnswer route ∨ Offered roster item target route →
      Held item done.2 route) : Reached roster item target mayAnswer ledger := by
  refine ⟨fun route howed => ?_, h.ends_iff.mp hok, fun route route' ho ho' hsame => ?_,
    fun route id ho hid => ?_⟩
  · obtain ⟨id, stored, hid, hstored, hroute⟩ := hall route (.inl howed)
    obtain hbefore | ⟨-, hmem, -⟩ := h.added hstored
    · exact .inr ⟨id, stored, hid, hbefore, hroute⟩
    · exact .inl (mem_targetsOf.mp (hroute.2.1 ▸ hmem))
  · obtain ⟨id, stored, hid, hstored, -, hroute, -⟩ := hall route (.inr ho)
    obtain ⟨id', stored', hid', hstored', -, hroute', -⟩ := hall route' (.inr ho')
    cases hid.symm.trans (hsame.trans hid')
    cases hstored.symm.trans hstored'
    exact hroute.symm.trans hroute'
  · obtain ⟨id', stored, hid', hstored, hroute⟩ := hall route (.inr ho)
    cases hid.symm.trans hid'
    cases hbefore : ledger.inner[id]? with
    | none => exact .inl rfl
    | some old =>
      cases (h.kept hbefore).symm.trans hstored
      exact .inr ⟨id, stored, hid, hbefore, hroute⟩

theorem Offers.held_of_reached (hreached : Reached roster item target mayAnswer ledger)
    (ho : Offered roster item target route) : Held item done.2 route := by
  have hok := h.ends_iff.mpr hreached.spelled
  obtain ⟨id, hid⟩ := hreached.spelled route ho
  obtain hfree | hheld := hreached.free route id ho hid
  · obtain ⟨stored, hstored⟩ := h.reached hok route (mem_targetsOf.mpr ho) id hid
    obtain hbefore | ⟨hitem, hmem, hown, hstate⟩ := h.added hstored
    · cases hfree.symm.trans hbefore
    · exact ⟨id, stored, hid, hstored, hitem,
        hreached.own _ _ (mem_targetsOf.mp hmem) ho (hown.trans hid.symm), hstate⟩
  · exact h.held hheld

end

def seatedDefinition : CeremonyDefinition :=
  (CeremonyDefinition.new ⟨"seated", .refl true⟩ firstVersion none [] []
    [.initial openState, .terminal doneState]
    [finishing []] [] []
    [.of ⟨"chair", .refl true⟩ .requestIntervention [],
      .of ⟨"writer", .refl true⟩ .respondToIntervention []]).get (by decide +kernel)

def chairQuestion : RequestIntervention :=
  requestAt ⟨"q1", .refl true⟩ ⟨"chair", .refl true⟩ none (.afterEpoch 1)

def writerAnswer : RespondToIntervention :=
  ⟨⟨"q1", .refl true⟩, ⟨"writer", .refl true⟩, chairQuestion.content, none, none, .afterEpoch 2⟩

end InterventionDeliverySubscriber

end Made
