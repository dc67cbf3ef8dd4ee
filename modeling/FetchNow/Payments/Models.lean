import FetchNow.Basic

/-!
# Rows of `payment_orders` and `premium_entitlements`

The CHECK constraints are those of the tables that depend on columns which are ever updated.
-/
namespace FetchNow

open Transactions

inductive PaymentOrderState where
  | created
  | pending
  | paid
  | expired
  deriving DecidableEq, Repr

/-- `_ALLOWED`. -/
def PaymentOrderState.allowed : PaymentOrderState → List PaymentOrderState
  | created => [.pending, .expired]
  | pending => [.paid, .expired]
  | paid => []
  | expired => []

def assertPaymentTransition (source target : PaymentOrderState) : Except Raised Unit :=
  require (target ∈ source.allowed) (.valueError "illegal payment order state transition")

/-- `fetchnow.payments.catalog.PaymentProduct`, as far as an order copies it. -/
structure PaymentProduct where
  code : String
  amountMinor : Int
  currency : String
  entitlementDurationSeconds : Int
  deriving DecidableEq, Repr

structure PaymentOrder where
  id : Uuid
  anonymousClientId : Uuid
  provider : String
  providerInvoiceId : Nat
  productCode : String
  amountMinor : Int
  currency : String
  entitlementDurationSeconds : Int
  status : PaymentOrderState
  isTest : Bool
  receiptJson : String
  creationIdempotencyHash : String
  createdAt : Timestamp
  updatedAt : Timestamp
  pendingAt : Option Timestamp
  paidAt : Option Timestamp
  providerCallbackAt : Option Timestamp
  expiresAt : Timestamp
  deriving DecidableEq, Repr

namespace PaymentOrder

variable (order : PaymentOrder)

/-- `ck_payment_orders_lifecycle`. -/
def CkLifecycle : Prop :=
  (order.status = .created ∧ order.pendingAt = none ∧ order.paidAt = none ∧
      order.providerCallbackAt = none) ∨
    (order.status = .pending ∧ order.pendingAt.isSome ∧ order.paidAt = none ∧
      order.providerCallbackAt = none) ∨
    (order.status = .paid ∧ ∃ pendingAt ∈ order.pendingAt,
      (∃ t ∈ order.paidAt, pendingAt ≤ t) ∧ ∃ t ∈ order.providerCallbackAt, pendingAt ≤ t) ∨
    (order.status = .expired ∧ order.paidAt = none ∧ order.providerCallbackAt = none)

instance : Decidable order.CkLifecycle := inferInstanceAs (Decidable (_ ∨ _))

end PaymentOrder

def flushOrder (order : PaymentOrder) : Except Raised PaymentOrder := do
  require order.CkLifecycle (.integrityError .orderLifecycle)
  .ok order

theorem flushOrder_eq_ok {order order' : PaymentOrder} :
    flushOrder order = .ok order' ↔ order.CkLifecycle ∧ order' = order := by
  simp only [flushOrder, bind_eq_ok, require_eq_ok, Except.ok.injEq]
  constructor
  · rintro ⟨_, h, rfl⟩
    exact ⟨h, rfl⟩
  · rintro ⟨h, rfl⟩
    exact ⟨(), h, rfl⟩

structure PremiumEntitlement where
  id : Uuid
  anonymousClientId : Uuid
  sourcePaymentOrderId : Uuid
  productCode : String
  startsAt : Timestamp
  expiresAt : Timestamp
  createdAt : Timestamp
  deriving DecidableEq, Repr

/-- What a service is told about a client's Premium access. -/
structure PremiumCapability where
  isPremium : Bool
  premiumExpiresAt : Option Timestamp
  productCode : Option String
  deriving DecidableEq, Repr

end FetchNow
