import FetchNow.Payments.Service
import FetchNow.Theory.Sessions

/-!
# Payments as concurrent sessions

Every call runs in a session of its own. A session reads what is committed, holds the locks of the
rows that it writes, and commits or rolls back as a whole.
-/
namespace FetchNow

open Transactions Sessions

open Function (update)

/-- How far the call of a session is. -/
inductive PaymentSession where
  | idle
  /- `create_order`: before the insert, after the conflict, before the commit -/
  | creating (service : PaymentService) (draft : PaymentOrder) (product : PaymentProduct)
  | found (service : PaymentService) (existing : PaymentOrder) (now : Timestamp)
  | ordered (row : PaymentOrder) (created : Bool) (written : List PaymentOrder)
  /- `accept_callback`: before the lock, before the entitlement, before the commit -/
  | called (service : PaymentService) (callback : Callback)
  | paid (row : PaymentOrder) (transitioned : Bool)
  | accepted (row : PaymentOrder) (transitioned : Bool) (granted : List PremiumEntitlement)
  | expiring (now : Timestamp) (todo written : List PaymentOrder)
  | reconciling (now : Timestamp) (todo : List PaymentOrder) (granted : List PremiumEntitlement)

namespace PaymentSession

/-- The row versions that the session has written. -/
def writes : PaymentSession → List PaymentOrder
  | ordered _ _ written | expiring _ _ written => written
  | paid row transitioned | accepted row transitioned _ => if transitioned then [row] else []
  | _ => []

/-- The orders whose rows the session has locked. -/
def locks : PaymentSession → List Uuid
  | ordered _ _ written | expiring _ _ written => written.map (·.id)
  | paid row _ | accepted row _ _ => [row.id]
  | _ => []

/-- The entitlements that the session has inserted. -/
def grants : PaymentSession → List PremiumEntitlement
  | accepted _ _ granted | reconciling _ _ granted => granted
  | _ => []

/-- The orders that these entitlements are for. -/
def grantedOrders (session : PaymentSession) : List Uuid :=
  session.grants.map (·.sourcePaymentOrderId)

/-- The call has returned, so that the caller commits. -/
def Returned : PaymentSession → Prop
  | ordered .. | accepted .. | expiring _ [] _ | reconciling _ [] _ => True
  | _ => False

end PaymentSession

/-- The committed rows, and the sessions. -/
structure PaymentWorld where
  orders : List PaymentOrder
  entitlements : List PremiumEntitlement
  sessions : Nat → PaymentSession

namespace PaymentWorld

variable (w : PaymentWorld)

/-- No other session has locked the row of an order. -/
def Unlocked (i : Nat) (id : Uuid) : Prop := ∀ j, j ≠ i → id ∉ (w.sessions j).locks

/-- No other session has inserted an entitlement for an order. -/
def Ungranted (i : Nat) (id : Uuid) : Prop := ∀ j, j ≠ i → id ∉ (w.sessions j).grantedOrders

def move (i : Nat) (session : PaymentSession) : PaymentWorld :=
  { w with sessions := update w.sessions i session }

def commit (i : Nat) : PaymentWorld where
  orders := upsert (·.id) (w.sessions i).writes w.orders
  entitlements := (w.sessions i).grants ++ w.entitlements
  sessions := update w.sessions i .idle

variable {w} {i j : Nat} {session : PaymentSession}

@[simp] theorem move_session : (w.move i session).sessions i = session :=
  Function.update_self ..

theorem move_session_ne (h : j ≠ i) : (w.move i session).sessions j = w.sessions j :=
  Function.update_of_ne h ..

@[simp] theorem commit_session : (w.commit i).sessions i = .idle := Function.update_self ..

theorem commit_session_ne (h : j ≠ i) : (w.commit i).sessions j = w.sessions j :=
  Function.update_of_ne h ..

end PaymentWorld

variable {w w' : PaymentWorld} {i : Nat}

/-- The next statement of session `i`. A statement that needs a lock waits until it has it. -/
inductive Statement (w : PaymentWorld) (i : Nat) : PaymentSession → PaymentSession → Prop
  | create {service : PaymentService} {id invoiceId clientId : Uuid} {code key : String}
      {now : Timestamp} {draft : PaymentOrder} {product : PaymentProduct} :
      service.draftOrder id invoiceId clientId code key now = .ok (draft, product) →
      Statement w i .idle (.creating service draft product)
  | insert {service : PaymentService} {draft row : PaymentOrder} {product : PaymentProduct} :
      (∀ o ∈ w.orders, o.id ≠ draft.id ∧ o.providerInvoiceId ≠ draft.providerInvoiceId ∧
        o.idempotency ≠ draft.idempotency) →
      (∀ j, j ≠ i → ∀ o ∈ (w.sessions j).writes, o.id ≠ draft.id ∧
        o.providerInvoiceId ≠ draft.providerInvoiceId ∧ o.idempotency ≠ draft.idempotency) →
      w.Unlocked i draft.id → flushOrder draft = .ok draft →
      service.settleOrder draft draft.createdAt = .ok row →
      Statement w i (.creating service draft product) (.ordered row true [row])
  | conflict {service : PaymentService} {draft existing : PaymentOrder}
      {product : PaymentProduct} :
      existing ∈ w.orders → existing.idempotency = draft.idempotency →
      existing.ImmutableMatches product draft.receiptJson →
      Statement w i (.creating service draft product) (.found service existing draft.createdAt)
  | reuse {service : PaymentService} {existing row : PaymentOrder} {now : Timestamp} :
      existing.status ≠ .created → service.settleOrder existing now = .ok row →
      Statement w i (.found service existing now) (.ordered row false [])
  /- the UPDATE applies to the row as it is by then -/
  | remark {service : PaymentService} {existing row current updated : PaymentOrder}
      {now : Timestamp} :
      existing.status = .created → service.settleOrder existing now = .ok row →
      current ∈ w.orders → current.id = existing.id → w.Unlocked i current.id →
      flushOrder (current.withPending now) = .ok updated →
      Statement w i (.found service existing now) (.ordered row false [updated])
  | call {service : PaymentService} {callback : Callback} {snapshot : PaymentOrder} :
      snapshot ∈ w.orders → snapshot.providerInvoiceId = callback.invId →
      service.receiveCallback callback snapshot = .ok () →
      Statement w i .idle (.called service callback)
  | pay {service : PaymentService} {callback : Callback} {current row : PaymentOrder}
      {now : Timestamp} {transitioned : Bool} :
      current ∈ w.orders → current.providerInvoiceId = callback.invId → w.Unlocked i current.id →
      PaymentService.checkCallback callback current = .ok () →
      current.markPaid now = .ok (row, transitioned) →
      Statement w i (.called service callback) (.paid row transitioned)
  | grant {row : PaymentOrder} {transitioned created : Bool} {id : Uuid} {now : Timestamp}
      {entitlement : PremiumEntitlement} :
      ensureForPaidOrder row id now w.entitlements = .ok (entitlement, created) →
      (created = true → w.Ungranted i row.id) →
      Statement w i (.paid row transitioned)
        (.accepted row transitioned (if created then [entitlement] else []))
  | expire {now : Timestamp} :
      Statement w i .idle (.expiring now (w.orders.filter (·.Unpaid now)) [])
  /- the row as it is once it is locked is checked again -/
  | expireRow {now : Timestamp} {order current : PaymentOrder}
      {todo written : List PaymentOrder} :
      current ∈ w.orders → current.id = order.id → w.Unlocked i current.id →
      Statement w i (.expiring now (order :: todo) written)
        (.expiring now todo
          (if current.Unpaid now then current.expire now :: written else written))
  | reconcile {now : Timestamp} :
      Statement w i .idle (.reconciling now (paidWithoutEntitlement w.orders w.entitlements) [])
  | reconcileRow {now : Timestamp} {order : PaymentOrder} {todo : List PaymentOrder}
      {granted : List PremiumEntitlement} {id : Uuid} {created : Bool}
      {entitlement : PremiumEntitlement} :
      ensureForPaidOrder order id now (granted ++ w.entitlements) = .ok (entitlement, created) →
      (created = true → w.Ungranted i order.id) →
      Statement w i (.reconciling now (order :: todo) granted)
        (.reconciling now todo (if created then entitlement :: granted else granted))

/-- One step of some session. What raises is rolled back. -/
inductive PaymentStep (w : PaymentWorld) : PaymentWorld → Prop
  | statement {i : Nat} {session : PaymentSession} :
      Statement w i (w.sessions i) session → PaymentStep w (w.move i session)
  | commit {i : Nat} : (w.sessions i).Returned → PaymentStep w (w.commit i)
  | rollback {i : Nat} : PaymentStep w (w.move i .idle)

end FetchNow
