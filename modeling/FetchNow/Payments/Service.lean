import FetchNow.Payments.Robokassa
import FetchNow.Theory.Batches
import Mathlib.Order.Bounds.Basic

/-!
# Orders, callbacks and entitlements

The functions of the payment and the Premium services on rows they have read.
-/
namespace FetchNow

open Transactions Batches

/-! ## Catalog -/

def productCode : String := "premium_24h"

def productDescription : String := "Доступ к функциям FetchNow на 24 часа"

/-- A product with what its receipt shows. -/
structure CatalogProduct extends PaymentProduct where
  receiptName : String
  receiptTax : String
  receiptPaymentMethod : String
  receiptPaymentObject : String := "service"
  deriving DecidableEq, Repr

/-- The settings that the payment service reads, and `hashlib.sha256(·).hexdigest()`. -/
structure PaymentService where
  robokassaMode : String
  premiumTestCheckoutVisible : Bool
  robokassaTestAmountMinor : Int
  robokassaReceiptTax : String
  robokassaReceiptPaymentMethod : String
  robokassaOrderTtlSeconds : Int
  robokassaTestPassword2 : String
  sha256 : String → String

/-- What a callback sends. -/
structure Callback where
  rawOutSum : String
  invId : Nat
  suppliedSignature : String
  deriving DecidableEq, Repr

namespace Robokassa

def serializeReceipt (product : CatalogProduct) : Except Raised String := do
  require (0 < product.amountMinor ∧ product.receiptPaymentObject = "service")
    (.paymentError .paymentInvariant)
  let sum ← formatOutSum product.amountMinor
  .ok ("\x7b\"items\":[\x7b\"name\":" ++ jsonString product.receiptName ++ ",\"quantity\":1" ++
    ",\"sum\":" ++ sum ++ ",\"payment_method\":" ++ jsonString product.receiptPaymentMethod ++
    ",\"payment_object\":" ++ jsonString product.receiptPaymentObject ++
    ",\"tax\":" ++ jsonString product.receiptTax ++ "\x7d]\x7d")

end Robokassa

/-! ## `PaymentOrderRepository` -/

namespace PaymentOrder

/-- `_immutable_matches`. -/
def ImmutableMatches (row : PaymentOrder) (product : PaymentProduct) (receiptJson : String) :
    Prop :=
  row.provider = "robokassa" ∧ row.productCode = product.code ∧
    row.amountMinor = product.amountMinor ∧ row.currency = product.currency ∧
    row.entitlementDurationSeconds = product.entitlementDurationSeconds ∧ row.isTest = true ∧
    row.receiptJson = receiptJson

instance (row : PaymentOrder) (product : PaymentProduct) (receiptJson : String) :
    Decidable (row.ImmutableMatches product receiptJson) := inferInstanceAs (Decidable (_ ∧ _))

def withPending (row : PaymentOrder) (now : Timestamp) : PaymentOrder :=
  { row with status := .pending, pendingAt := some now, updatedAt := now }

def markPending (row : PaymentOrder) (now : Timestamp) : Except Raised PaymentOrder := do
  if row.status = .pending then .ok row
  else
    assertPaymentTransition row.status .pending
    flushOrder (row.withPending now)

/-- The row afterwards, and whether it was marked. -/
def markPaid (row : PaymentOrder) (now : Timestamp) : Except Raised (PaymentOrder × Bool) := do
  if row.status = .paid then .ok (row, false)
  else
    assertPaymentTransition row.status .paid
    let row ← flushOrder { row with
      status := .paid, paidAt := some now, providerCallbackAt := some now, updatedAt := now }
    .ok (row, true)

/-- The rows that `expire_unpaid` updates. -/
def Unpaid (row : PaymentOrder) (now : Timestamp) : Prop :=
  (row.status = .created ∨ row.status = .pending) ∧ row.expiresAt ≤ now

instance (row : PaymentOrder) (now : Timestamp) : Decidable (row.Unpaid now) :=
  inferInstanceAs (Decidable (_ ∧ _))

def expire (row : PaymentOrder) (now : Timestamp) : PaymentOrder :=
  { row with status := .expired, updatedAt := now }

/-- The key of `uq_payment_orders_client_idempotency`. -/
def idempotency (row : PaymentOrder) : Uuid × String :=
  (row.anonymousClientId, row.creationIdempotencyHash)

end PaymentOrder

/-! ## `PaymentService` -/

namespace PaymentService

variable (service : PaymentService)

def requireTestMode : Except Raised Unit :=
  require (service.robokassaMode = "test") (.paymentError .paymentsDisabled)

def ensureCheckoutAvailable : Except Raised Unit :=
  require (service.robokassaMode = "test" ∧ service.premiumTestCheckoutVisible)
    (.paymentError .paymentsDisabled)

def getProduct (code : String) : Except Raised CatalogProduct := do
  require (code = productCode) (.paymentError .unknownProduct)
  require (service.robokassaMode = "test" ∧ 0 < service.robokassaTestAmountMinor)
    (.paymentError .unknownProduct)
  .ok
    { code := productCode, amountMinor := service.robokassaTestAmountMinor, currency := "RUB",
      entitlementDurationSeconds := 86400, receiptName := productDescription,
      receiptTax := service.robokassaReceiptTax,
      receiptPaymentMethod := service.robokassaReceiptPaymentMethod }

/-- The characters of `_KEY`. -/
def isKeyChar (c : Char) : Bool := c.isAlphanum || c ∈ ['.', '_', '~', '-']

/-- The digest in hexadecimal. -/
def hashIdempotencyKey (key : String) : Except Raised String := do
  require (22 ≤ key.length ∧ key.length ≤ 128 ∧ key.toList.all isKeyChar)
    (.paymentError .invalidIdempotencyKey)
  .ok (service.sha256 ("fetchnow:v1:payment-order-idempotency\x00" ++ key))

/-- The row that `create_or_get` inserts, with the product that it is a snapshot of. -/
def draftOrder (id invoiceId clientId : Uuid) (code key : String) (now : Timestamp) :
    Except Raised (PaymentOrder × PaymentProduct) := do
  service.ensureCheckoutAvailable
  let product ← service.getProduct code
  let receipt ← Robokassa.serializeReceipt product
  let hash ← service.hashIdempotencyKey key
  require (hash.length = 64) (.paymentError .paymentInvariant)
  let draft : PaymentOrder :=
    { id, anonymousClientId := clientId, provider := "robokassa", providerInvoiceId := invoiceId,
      productCode := product.code, amountMinor := product.amountMinor,
      currency := product.currency,
      entitlementDurationSeconds := product.entitlementDurationSeconds, status := .created,
      isTest := true, receiptJson := receipt, creationIdempotencyHash := hash, createdAt := now,
      updatedAt := now, pendingAt := none, paidAt := none, providerCallbackAt := none,
      expiresAt := now + seconds service.robokassaOrderTtlSeconds }
  .ok (draft, product.toPaymentProduct)

/-- The checks of `_form_fields`. -/
def formFields (row : PaymentOrder) : Except Raised Unit := do
  service.requireTestMode
  require (row.provider = "robokassa" ∧ row.productCode = FetchNow.productCode ∧
    row.currency = "RUB" ∧ row.isTest = true ∧ 0 < row.providerInvoiceId)
    (.paymentError .paymentInvariant)

/-- `create_order` once it has a row. -/
def settleOrder (row : PaymentOrder) (now : Timestamp) : Except Raised PaymentOrder := do
  if row.status = .created then
    let row ← row.markPending now
    service.formFields row
    .ok row
  else
    require (row.status = .pending) (.paymentError .paymentInvariant)
    service.formFields row
    .ok row

/-- `_validate_callback_snapshot`. -/
def validateCallbackSnapshot (row : PaymentOrder) : Except Raised Unit :=
  require (row.provider = "robokassa" ∧ row.productCode = FetchNow.productCode ∧
    row.currency = "RUB" ∧ row.isTest = true ∧ row.entitlementDurationSeconds = 86400 ∧
    (row.status = .pending ∨ row.status = .paid)) (.paymentError .invalidCallback)

/-- The amount and the row, checked once before the row is locked and once after. -/
def checkCallback (callback : Callback) (row : PaymentOrder) : Except Raised Unit := do
  let amount ← Robokassa.parseCallbackOutSum callback.rawOutSum
  require (amount = row.amountMinor) (.paymentError .invalidCallback)
  validateCallbackSnapshot row

def signCallback (callback : Callback) : String :=
  service.sha256 (Robokassa.callbackSignatureBase callback.rawOutSum callback.invId
    service.robokassaTestPassword2)

/-- `accept_callback` up to the row lock. -/
def receiveCallback (callback : Callback) (snapshot : PaymentOrder) : Except Raised Unit := do
  service.requireTestMode
  require (Robokassa.signatureMatches callback.suppliedSignature (service.signCallback callback))
    (.paymentError .invalidCallback)
  checkCallback callback snapshot

end PaymentService

/-! ## `PremiumEntitlementRepository` -/

/-- The entitlement for the order and whether it was created; `stored` are the rows that the
session sees. An insert that meets the unique key of a row committed meanwhile is undone, and the
row is read again. -/
def ensureForPaidOrder (order : PaymentOrder) (id : Uuid) (now : Timestamp)
    (stored : List PremiumEntitlement) : Except Raised (PremiumEntitlement × Bool) :=
  match order.paidAt with
  | none => .error .premiumEntitlementInvariantError
  | some startsAt => do
    require (order.status = .paid ∧ 0 < order.entitlementDurationSeconds)
      .premiumEntitlementInvariantError
    match stored.find? (·.sourcePaymentOrderId = order.id) with
    | some existing => .ok (existing, false)
    | none =>
      let expiresAt := startsAt + seconds order.entitlementDurationSeconds
      require (startsAt < expiresAt) .premiumEntitlementInvariantError
      .ok (⟨id, order.anonymousClientId, order.id, order.productCode, startsAt, expiresAt, now⟩,
        true)

/-- `get_active_for_client`. -/
def getActiveForClient (clientId : Uuid) (now : Timestamp) (stored : List PremiumEntitlement) :
    Option PremiumEntitlement :=
  (firstBy (fun e => -e.expiresAt) 1 (stored.filter fun e =>
    e.anonymousClientId = clientId ∧ e.startsAt ≤ now ∧ now < e.expiresAt)).head?

def capabilityFromEntitlement : Option PremiumEntitlement → PremiumCapability
  | none => ⟨false, none, none⟩
  | some entitlement => ⟨true, some entitlement.expiresAt, some entitlement.productCode⟩

def statusForClient (clientId : Uuid) (now : Timestamp) (stored : List PremiumEntitlement) :
    PremiumCapability :=
  capabilityFromEntitlement (getActiveForClient clientId now stored)

/-- The rows that `reconcile_paid_orders_without_entitlement` selects. -/
def paidWithoutEntitlement (orders : List PaymentOrder) (stored : List PremiumEntitlement) :
    List PaymentOrder :=
  (orders.filter fun order =>
    order.status = .paid ∧ stored.all (·.sourcePaymentOrderId ≠ order.id)).insertionSort
    fun a b => a.paidAt.getD 0 ≤ b.paidAt.getD 0

end FetchNow
