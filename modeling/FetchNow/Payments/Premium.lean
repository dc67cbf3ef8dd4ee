import FetchNow.Payments.Sessions

/-! Every accepted payment grants Premium exactly once, whatever runs at the same time. -/
namespace FetchNow

open Transactions Sessions Batches

open Function (update)
open Relation (ReflTransGen)

variable {orders : List PaymentOrder} {entitlements : List PremiumEntitlement}
  {order order' order'' row : PaymentOrder} {entitlement : PremiumEntitlement}
  {service : PaymentService} {now t : Timestamp} {session session' : PaymentSession}
  {w w' w₀ : PaymentWorld} {i : Nat} {id clientId : Uuid}

/-! ## Orders -/

/-- What later writes may do to an order. -/
structure OrderAdvances (order order' : PaymentOrder) : Prop where
  snapshot : order' = { order with
    status := order'.status, updatedAt := order'.updatedAt, pendingAt := order'.pendingAt,
    paidAt := order'.paidAt, providerCallbackAt := order'.providerCallbackAt }
  path : ReflTransGen (fun source target => target ∈ source.allowed) order.status order'.status
  final : order.status = .paid ∨ order.status = .expired → order' = order

namespace OrderAdvances

theorem refl (order : PaymentOrder) : OrderAdvances order order := ⟨rfl, .refl, fun _ => rfl⟩

theorem trans (h : OrderAdvances order order') (h' : OrderAdvances order' order'') :
    OrderAdvances order order'' where
  snapshot := by
    have hsnapshot := congrArg (fun o : PaymentOrder => { o with
      status := order''.status, updatedAt := order''.updatedAt, pendingAt := order''.pendingAt,
      paidAt := order''.paidAt, providerCallbackAt := order''.providerCallbackAt }) h.snapshot
    exact h'.snapshot.trans hsnapshot
  path := h.path.trans h'.path
  final hfinal := by
    obtain rfl := h.final hfinal
    exact h'.final hfinal

theorem id_eq (h : OrderAdvances order order') : order'.id = order.id := by rw [h.snapshot]

theorem expire (h : order.Unpaid now) : OrderAdvances order (order.expire now) where
  snapshot := rfl
  path := .single (by
    rcases h.1 with h | h <;> simp [h, PaymentOrder.expire, PaymentOrderState.allowed])
  final hfinal := by rcases h.1 with h | h <;> simp [h] at hfinal

end OrderAdvances

theorem expire_ckLifecycle (h : order.Unpaid now) (hck : order.CkLifecycle) :
    (order.expire now).CkLifecycle := by
  refine .inr (.inr (.inr ⟨rfl, ?_⟩))
  rcases hck with ⟨_, _, hpaid, hcallback⟩ | ⟨_, _, hpaid, hcallback⟩ | ⟨hstate, _⟩ |
    ⟨_, hpaid, hcallback⟩
  · exact ⟨hpaid, hcallback⟩
  · exact ⟨hpaid, hcallback⟩
  · rcases h.1 with h | h <;> rw [hstate] at h <;> cases h
  · exact ⟨hpaid, hcallback⟩

theorem settleOrder_created (hstatus : order.status = .created)
    (h : service.settleOrder order now = .ok row) :
    row = order.withPending now ∧ row.CkLifecycle := by
  rw [PaymentService.settleOrder, if_pos hstatus] at h
  simp only [bind_eq_ok] at h
  obtain ⟨row', hmark, _, _, hrow⟩ := h
  cases hrow
  rw [PaymentOrder.markPending, if_neg (by simp [hstatus])] at hmark
  obtain ⟨_, _, hflush⟩ := bind_eq_ok.mp hmark
  obtain ⟨hck, rfl⟩ := flushOrder_eq_ok.mp hflush
  exact ⟨rfl, hck⟩

theorem settleOrder_id (h : service.settleOrder order now = .ok row) : row.id = order.id := by
  by_cases hstatus : order.status = .created
  · rw [(settleOrder_created hstatus h).1]
    rfl
  · rw [PaymentService.settleOrder, if_neg hstatus] at h
    simp only [bind_eq_ok] at h
    obtain ⟨_, _, _, _, hrow⟩ := h
    cases hrow
    rfl

theorem draftOrder_status {draft : PaymentOrder} {product : PaymentProduct} {invoiceId : Uuid}
    {code key : String}
    (h : service.draftOrder id invoiceId clientId code key now = .ok (draft, product)) :
    draft.status = .created := by
  simp only [PaymentService.draftOrder, bind_eq_ok, Except.ok.injEq, Prod.mk.injEq] at h
  obtain ⟨_, _, _, _, _, _, _, _, _, _, rfl, _⟩ := h
  rfl

theorem markPaid_eq_ok {transitioned : Bool}
    (h : order.markPaid now = .ok (row, transitioned)) :
    row = order ∧ order.status = .paid ∧ transitioned = false ∨
      OrderAdvances order row ∧ row.status = .paid ∧ row.CkLifecycle ∧ transitioned = true := by
  unfold PaymentOrder.markPaid at h
  split at h
  · rename_i hpaid
    cases h
    exact .inl ⟨rfl, hpaid, rfl⟩
  · obtain ⟨_, hallowed, h⟩ := bind_eq_ok.mp h
    obtain ⟨_, hflush, h⟩ := bind_eq_ok.mp h
    cases h
    obtain ⟨hck, rfl⟩ := flushOrder_eq_ok.mp hflush
    have hallowed := require_eq_ok.mp hallowed
    refine .inr ⟨⟨rfl, .single hallowed, fun hfinal => ?_⟩, rfl, hck, rfl⟩
    rcases hfinal with hfinal | hfinal <;> simp [hfinal, PaymentOrderState.allowed] at hallowed

/-! ## Entitlements -/

/-- The entitlement that a paid order grants. -/
structure Grants (order : PaymentOrder) (entitlement : PremiumEntitlement) : Prop where
  paid : order.status = .paid
  source : entitlement.sourcePaymentOrderId = order.id
  client : entitlement.anonymousClientId = order.anonymousClientId
  startsAt : order.paidAt = some entitlement.startsAt
  expiresAt : entitlement.expiresAt =
    entitlement.startsAt + seconds order.entitlementDurationSeconds
  productCode : entitlement.productCode = order.productCode

/-- An order is paid, and is granted by exactly one entitlement, its own. -/
def GrantedOnce (w : PaymentWorld) (order : PaymentOrder) : Prop :=
  order ∈ w.orders ∧ ∃ entitlement, Grants order entitlement ∧
    w.entitlements.filter (·.sourcePaymentOrderId = order.id) = [entitlement]

theorem ensureForPaidOrder_eq_ok {stored : List PremiumEntitlement} {created : Bool}
    (h : ensureForPaidOrder order id now stored = .ok (entitlement, created)) :
    created = false ∧ entitlement ∈ stored ∧ entitlement.sourcePaymentOrderId = order.id ∨
      created = true ∧ Grants order entitlement ∧
        ∀ e ∈ stored, e.sourcePaymentOrderId ≠ order.id := by
  unfold ensureForPaidOrder at h
  split at h
  · cases h
  rename_i startsAt hpaidAt
  obtain ⟨_, hpaid, h⟩ := bind_eq_ok.mp h
  have hpaid := require_eq_ok.mp hpaid
  split at h
  · rename_i existing hfind
    cases h
    have hsource := List.find?_some hfind
    exact .inl ⟨rfl, List.mem_of_find?_eq_some hfind, of_decide_eq_true hsource⟩
  · rename_i hfind
    obtain ⟨_, _, h⟩ := bind_eq_ok.mp h
    cases h
    refine .inr ⟨rfl, ⟨hpaid.1, rfl, rfl, hpaidAt, rfl, rfl⟩, fun e he => ?_⟩
    simpa using List.find?_eq_none.mp hfind e he

/-! ## Invariants -/

/-- What a session knows about the rows that it has read. -/
def PaymentSession.Known (orders : List PaymentOrder) (entitlements : List PremiumEntitlement) :
    PaymentSession → Prop
  | .creating _ draft _ => draft.status = .created
  | .found _ existing _ => existing.status ≠ .created
  | .ordered _ _ written => ∀ o ∈ written, o.status ≠ .paid
  | .expiring _ todo written =>
    (∀ o ∈ written, o.status ≠ .paid) ∧ ((todo ++ written).map (·.id)).Nodup
  | .paid row transitioned => row.status = .paid ∧ (transitioned = false → row ∈ orders)
  | .accepted row transitioned granted =>
    row.status = .paid ∧ (transitioned = false → row ∈ orders) ∧
      ∃ e ∈ granted ++ entitlements, e.sourcePaymentOrderId = row.id
  | .reconciling _ todo _ => ∀ o ∈ todo, o ∈ orders ∧ o.status = .paid
  | .idle | .called .. => True

/-- A session that agrees with the committed rows. -/
structure PaymentSession.Sound (orders : List PaymentOrder)
    (entitlements : List PremiumEntitlement) (session : PaymentSession) : Prop where
  known : session.Known orders entitlements
  ids : (session.writes.map (·.id)).Nodup
  lifecycle : ∀ o ∈ session.writes, o.CkLifecycle ∧ o.status ≠ .created
  advances : Writes (·.id) OrderAdvances orders session.writes
  sources : session.grantedOrders.Nodup
  fresh : ∀ e ∈ session.grants, ∀ e' ∈ entitlements,
    e'.sourcePaymentOrderId ≠ e.sourcePaymentOrderId
  grants : ∀ e ∈ session.grants, ∃ o, (o ∈ session.writes ∨ o ∈ orders) ∧ Grants o e

/-- The invariant of the committed rows and of the sessions. -/
structure PaymentWorld.Sound (w : PaymentWorld) : Prop where
  ids : (w.orders.map (·.id)).Nodup
  lifecycle : ∀ o ∈ w.orders, o.CkLifecycle ∧ o.status ≠ .created
  sources : (w.entitlements.map (·.sourcePaymentOrderId)).Nodup
  granted : ∀ e ∈ w.entitlements, ∃ o ∈ w.orders, Grants o e
  locks : Exclusive PaymentSession.locks w.sessions
  grantedOrders : Exclusive PaymentSession.grantedOrders w.sessions
  sessions : ∀ i, (w.sessions i).Sound w.orders w.entitlements

theorem PaymentSession.writes_locks (session : PaymentSession) :
    ∀ id ∈ session.writes.map (·.id), id ∈ session.locks := by
  cases session with
  | ordered | expiring => exact fun _ h => h
  | paid _ transitioned | accepted _ transitioned =>
    cases transitioned <;> simp [writes, locks]
  | _ => simp [writes]

/-- A session that has written nothing. -/
theorem PaymentSession.Sound.of_nil (hwrites : session.writes = []) (hgrants : session.grants = [])
    (hknown : session.Known orders entitlements) : session.Sound orders entitlements where
  known := hknown
  ids := by rw [hwrites]; exact .nil
  lifecycle := by rw [hwrites]; exact fun _ h => (List.not_mem_nil h).elim
  advances := by rw [hwrites]; exact fun _ h => (List.not_mem_nil h).elim
  sources := by rw [grantedOrders, hgrants]; exact .nil
  fresh := by rw [hgrants]; exact fun _ h => (List.not_mem_nil h).elim
  grants := by rw [hgrants]; exact fun _ h => (List.not_mem_nil h).elim

/-- A session that has written one order. -/
theorem PaymentSession.Sound.of_row (hwrites : session.writes = [row])
    (hgrants : session.grants = []) (hknown : session.Known orders entitlements)
    (hck : row.CkLifecycle) (hstatus : row.status ≠ .created)
    (hadvances : ∀ o ∈ orders, o.id = row.id → OrderAdvances o row) :
    session.Sound orders entitlements where
  known := hknown
  ids := by rw [hwrites]; exact List.nodup_singleton _
  lifecycle := by
    rw [hwrites]
    rintro _ (_ | ⟨_, ⟨⟩⟩)
    exact ⟨hck, hstatus⟩
  advances := by
    rw [hwrites]
    rintro _ (_ | ⟨_, ⟨⟩⟩)
    exact hadvances
  sources := by rw [grantedOrders, hgrants]; exact .nil
  fresh := by rw [hgrants]; exact fun _ h => (List.not_mem_nil h).elim
  grants := by rw [hgrants]; exact fun _ h => (List.not_mem_nil h).elim

theorem PaymentSession.Sound.grant {transitioned created : Bool}
    (hs : (paid row transitioned).Sound orders entitlements)
    (hensure : ensureForPaidOrder row id now entitlements = .ok (entitlement, created)) :
    (accepted row transitioned (if created then [entitlement] else [])).Sound orders
      entitlements := by
  obtain ⟨hpaid, hrow⟩ := hs.known
  rcases ensureForPaidOrder_eq_ok hensure with ⟨rfl, hmem, hsource⟩ | ⟨rfl, hgrants, hfresh⟩
  · exact ⟨⟨hpaid, hrow, entitlement, hmem, hsource⟩, hs.ids, hs.lifecycle, hs.advances,
      hs.sources, hs.fresh, hs.grants⟩
  · refine ⟨⟨hpaid, hrow, entitlement, List.mem_cons_self, hgrants.source⟩, hs.ids,
      hs.lifecycle, hs.advances, List.nodup_singleton _, ?_, ?_⟩
    · refine List.forall_mem_cons.mpr ⟨?_, hs.fresh⟩
      rw [hgrants.source]
      exact hfresh
    · refine List.forall_mem_cons.mpr ⟨⟨row, ?_, hgrants⟩, hs.grants⟩
      cases transitioned with
      | false => exact .inr (hrow rfl)
      | true => exact .inl List.mem_cons_self

theorem PaymentSession.Sound.expireRow {current : PaymentOrder} {todo written : List PaymentOrder}
    (hs : (expiring now (order :: todo) written).Sound w.orders w.entitlements)
    (hw : w.Sound) (hcurrent : current ∈ w.orders) (hid : current.id = order.id)
    (hexpires : current.Unpaid now) :
    (expiring now todo (current.expire now :: written)).Sound w.orders w.entitlements where
  known := by
    refine ⟨List.forall_mem_cons.mpr ⟨nofun, hs.known.1⟩, ?_⟩
    have hperm : ((todo ++ current.expire now :: written).map (·.id)).Perm
        ((order :: todo ++ written).map (·.id)) := by
      simp [PaymentOrder.expire, hid]
    exact hperm.nodup_iff.mpr hs.known.2
  ids := by
    have hids := hs.known.2
    rw [List.cons_append, List.map_cons, List.nodup_cons, List.map_append] at hids
    refine List.nodup_cons.mpr ⟨fun hmem => hids.1 ?_, hs.ids⟩
    exact hid ▸ List.mem_append_right _ hmem
  lifecycle := List.forall_mem_cons.mpr
    ⟨⟨expire_ckLifecycle hexpires (hw.lifecycle _ hcurrent).1, nofun⟩, hs.lifecycle⟩
  advances := by
    refine List.forall_mem_cons.mpr ⟨fun b hb hkey => ?_, hs.advances⟩
    obtain rfl := List.inj_on_of_nodup_map hw.ids hb hcurrent hkey
    exact .expire hexpires
  sources := .nil
  fresh := fun _ h => (List.not_mem_nil h).elim
  grants := fun _ h => (List.not_mem_nil h).elim

theorem PaymentSession.Sound.reconcileRow {todo : List PaymentOrder} {created : Bool}
    {granted : List PremiumEntitlement}
    (hs : (reconciling now (order :: todo) granted).Sound orders entitlements)
    (hensure : ensureForPaidOrder order id now (granted ++ entitlements) =
      .ok (entitlement, created)) :
    (reconciling now todo (if created then entitlement :: granted else granted)).Sound orders
      entitlements := by
  have hknown := List.forall_mem_cons.mp hs.known
  rcases ensureForPaidOrder_eq_ok hensure with ⟨rfl, _, _⟩ | ⟨rfl, hgrants, hfresh⟩
  · exact ⟨hknown.2, hs.ids, hs.lifecycle, hs.advances, hs.sources, hs.fresh, hs.grants⟩
  · refine ⟨hknown.2, hs.ids, hs.lifecycle, hs.advances, ?_, ?_, ?_⟩
    · refine List.nodup_cons.mpr ⟨fun hmem => ?_, hs.sources⟩
      obtain ⟨e, he, hsource⟩ := List.mem_map.mp hmem
      exact hfresh e (List.mem_append_left _ he) (hsource.trans hgrants.source)
    · refine List.forall_mem_cons.mpr ⟨fun e he => ?_, hs.fresh⟩
      rw [hgrants.source]
      exact hfresh e (List.mem_append_right _ he)
    · exact List.forall_mem_cons.mpr ⟨⟨order, .inr hknown.1.1, hgrants⟩, hs.grants⟩

theorem mem_paidWithoutEntitlement (h : order ∈ paidWithoutEntitlement orders entitlements) :
    order ∈ orders ∧ order.status = .paid := by
  have hmem := List.mem_filter.mp ((List.mem_insertionSort _).mp h)
  exact ⟨hmem.1, (of_decide_eq_true hmem.2).1⟩

/-- The next statement of a session leaves it sound. -/
theorem Statement.sound (h : Statement w i session session') (hw : w.Sound)
    (hs : session.Sound w.orders w.entitlements) : session'.Sound w.orders w.entitlements := by
  cases h with
  | create hdraft => exact .of_nil rfl rfl (draftOrder_status hdraft)
  | insert hfree _ _ _ hsettle =>
    obtain ⟨rfl, hck⟩ := settleOrder_created hs.known hsettle
    refine .of_row rfl rfl (by simp [PaymentSession.Known, PaymentOrder.withPending]) hck
      (by simp [PaymentOrder.withPending]) fun o ho hid => ?_
    exact absurd hid (hfree o ho).1
  | conflict hexisting => exact .of_nil rfl rfl (hw.lifecycle _ hexisting).2
  | reuse => exact .of_nil rfl rfl (fun _ h => (List.not_mem_nil h).elim)
  | remark hcreated => exact absurd hcreated hs.known
  | call => exact .of_nil rfl rfl trivial
  | pay hcurrent _ _ _ hpaid =>
    rcases markPaid_eq_ok hpaid with ⟨rfl, hstatus, rfl⟩ | ⟨hadvances, hstatus, hck, rfl⟩
    · exact .of_nil rfl rfl ⟨hstatus, fun _ => hcurrent⟩
    · refine .of_row rfl rfl ⟨hstatus, nofun⟩ hck (by simp [hstatus]) fun o ho hid => ?_
      obtain rfl := List.inj_on_of_nodup_map hw.ids ho hcurrent (hid.trans hadvances.id_eq)
      exact hadvances
  | grant hensure => exact hs.grant hensure
  | @expire now =>
    refine .of_nil rfl rfl ⟨fun _ h => (List.not_mem_nil h).elim, ?_⟩
    rw [List.append_nil]
    exact hw.ids.sublist (List.filter_sublist.map _)
  | @expireRow now order current todo written hcurrent hid _ =>
    obtain ⟨hunpaid, hids⟩ := hs.known
    by_cases hexpires : current.Unpaid now
    · rw [if_pos hexpires]
      exact hs.expireRow hw hcurrent hid hexpires
    · rw [if_neg hexpires]
      exact ⟨⟨hunpaid, (List.nodup_cons.mp hids).2⟩, hs.ids, hs.lifecycle, hs.advances,
        hs.sources, hs.fresh, hs.grants⟩
  | reconcile => exact .of_nil rfl rfl fun o ho => mem_paidWithoutEntitlement ho
  | reconcileRow hensure => exact hs.reconcileRow hensure

/-- A session extends its locks by rows that no other session has locked. -/
theorem Statement.locks (h : Statement w i session session') :
    ∀ id ∈ session'.locks, id ∈ session.locks ∨ w.Unlocked i id := by
  cases h with
  | insert _ _ hunlocked _ hsettle =>
    refine List.forall_mem_singleton.mpr (.inr ?_)
    simpa only [settleOrder_id hsettle] using hunlocked
  | remark _ _ _ _ hunlocked hflush =>
    obtain ⟨_, rfl⟩ := flushOrder_eq_ok.mp hflush
    exact List.forall_mem_singleton.mpr (.inr hunlocked)
  | pay _ _ hunlocked _ hpaid =>
    refine List.forall_mem_singleton.mpr (.inr ?_)
    rcases markPaid_eq_ok hpaid with ⟨rfl, _⟩ | ⟨hadvances, _⟩
    · exact hunlocked
    · simpa only [hadvances.id_eq] using hunlocked
  | grant => exact fun _ h => .inl h
  | expireRow _ _ hunlocked =>
    split
    · exact List.forall_mem_cons.mpr ⟨.inr hunlocked, fun _ h => .inl h⟩
    · exact fun _ h => .inl h
  | create | conflict | reuse | call | expire | reconcile | reconcileRow =>
    exact fun _ h => (List.not_mem_nil h).elim

/-- A session grants orders that no other session has granted. -/
theorem Statement.grantedOrders (h : Statement w i session session') :
    ∀ id ∈ session'.grantedOrders, id ∈ session.grantedOrders ∨ w.Ungranted i id := by
  cases h with
  | grant hensure hungranted | reconcileRow hensure hungranted =>
    rcases ensureForPaidOrder_eq_ok hensure with ⟨rfl, _, _⟩ | ⟨rfl, hgrants, _⟩
    · exact fun _ h => .inl h
    · refine List.forall_mem_cons.mpr ⟨.inr ?_, fun _ h => .inl h⟩
      simpa only [hgrants.source] using hungranted rfl
  | create | insert | conflict | reuse | remark | call | pay | expire | expireRow | reconcile =>
    exact fun _ h => (List.not_mem_nil h).elim

theorem PaymentWorld.Sound.move (hw : w.Sound) (hs : session.Sound w.orders w.entitlements)
    (hlocks : ∀ id ∈ session.locks, id ∈ (w.sessions i).locks ∨ w.Unlocked i id)
    (hgranted : ∀ id ∈ session.grantedOrders,
      id ∈ (w.sessions i).grantedOrders ∨ w.Ungranted i id) : (w.move i session).Sound where
  ids := hw.ids
  lifecycle := hw.lifecycle
  sources := hw.sources
  granted := hw.granted
  locks := hw.locks.update fun j hj id hid hother =>
    (hlocks id hid).elim (fun h => hw.locks i j hj.symm h hother) fun h => h j hj hother
  grantedOrders := hw.grantedOrders.update fun j hj id hid hother =>
    (hgranted id hid).elim (fun h => hw.grantedOrders i j hj.symm h hother) fun h => h j hj hother
  sessions j := by
    by_cases hj : j = i
    · subst hj
      rw [PaymentWorld.move_session]
      exact hs
    · rw [PaymentWorld.move_session_ne hj]
      exact hw.sessions j

/-! ## Commits -/

/-- A paid or expired order stays as it is. -/
theorem PaymentSession.Sound.mem_upsert (hs : session.Sound orders entitlements)
    (horder : order ∈ orders) (hfinal : order.status = .paid ∨ order.status = .expired) :
    order ∈ upsert (·.id) session.writes orders := by
  obtain ⟨order', hmem, _, hadvances⟩ := hs.advances.published OrderAdvances.refl horder
  rwa [hadvances.final hfinal] at hmem

/-- The commit of one session leaves another one sound. -/
theorem PaymentSession.Sound.commit (hs : session.Sound orders entitlements)
    (hs' : session'.Sound orders entitlements) (hlocks : session'.locks.Disjoint session.locks)
    (hgranted : session'.grantedOrders.Disjoint session.grantedOrders) :
    session'.Sound (upsert (·.id) session.writes orders) (session.grants ++ entitlements) where
  known := by
    have hknown := hs'.known
    cases session' with
    | idle => trivial
    | creating => exact hknown
    | found => exact hknown
    | ordered => exact hknown
    | called => trivial
    | paid row =>
      exact ⟨hknown.1, fun h => hs.mem_upsert (hknown.2 h) (.inl hknown.1)⟩
    | accepted row =>
      obtain ⟨hpaid, hrow, e, he, hsource⟩ := hknown
      refine ⟨hpaid, fun h => hs.mem_upsert (hrow h) (.inl hpaid), e, ?_, hsource⟩
      rcases List.mem_append.mp he with he | he
      · exact List.mem_append_left _ he
      · exact List.mem_append_right _ (List.mem_append_right _ he)
    | expiring => exact hknown
    | reconciling =>
      exact fun o ho => ⟨hs.mem_upsert (hknown o ho).1 (.inl (hknown o ho).2), (hknown o ho).2⟩
  ids := hs'.ids
  lifecycle := hs'.lifecycle
  advances := hs'.advances.upsert fun id hid hid' =>
    hlocks (session'.writes_locks id hid) (session.writes_locks id hid')
  sources := hs'.sources
  fresh e he e' he' hsource := by
    rcases List.mem_append.mp he' with he' | he'
    · exact hgranted (List.mem_map_of_mem he) (hsource ▸ List.mem_map_of_mem he')
    · exact hs'.fresh e he e' he' hsource
  grants e he := by
    obtain ⟨o, ho, hgrants⟩ := hs'.grants e he
    exact ⟨o, ho.imp_right fun ho => hs.mem_upsert ho (.inl hgrants.paid), hgrants⟩

theorem PaymentWorld.Sound.commit (hw : w.Sound) : (w.commit i).Sound where
  ids := nodup_upsert (hw.sessions i).ids hw.ids
  lifecycle o ho := by
    rcases mem_upsert.mp ho with ho | ⟨ho, _⟩
    · exact (hw.sessions i).lifecycle o ho
    · exact hw.lifecycle o ho
  sources := by
    rw [PaymentWorld.commit, List.map_append]
    refine (hw.sessions i).sources.append hw.sources fun id hid hid' => ?_
    obtain ⟨e, he, rfl⟩ := List.mem_map.mp hid
    obtain ⟨e', he', hsource⟩ := List.mem_map.mp hid'
    exact (hw.sessions i).fresh e he e' he' hsource
  granted e he := by
    have hs := hw.sessions i
    rcases List.mem_append.mp he with he | he
    · obtain ⟨o, ho, hgrants⟩ := hs.grants e he
      refine ⟨o, ?_, hgrants⟩
      rcases ho with ho | ho
      · exact Sessions.mem_upsert.mpr (.inl ho)
      · exact hs.mem_upsert ho (.inl hgrants.paid)
    · obtain ⟨o, ho, hgrants⟩ := hw.granted e he
      exact ⟨o, hs.mem_upsert ho (.inl hgrants.paid), hgrants⟩
  locks := hw.locks.shrink fun _ h => (List.not_mem_nil h).elim
  grantedOrders := hw.grantedOrders.shrink fun _ h => (List.not_mem_nil h).elim
  sessions j := by
    by_cases hj : j = i
    · subst hj
      rw [PaymentWorld.commit_session]
      exact .of_nil rfl rfl trivial
    · rw [PaymentWorld.commit_session_ne hj]
      exact (hw.sessions i).commit (hw.sessions j) (hw.locks j i hj) (hw.grantedOrders j i hj)

theorem PaymentStep.sound (hw : w.Sound) (h : PaymentStep w w') : w'.Sound := by
  cases h with
  | statement h => exact hw.move (h.sound hw (hw.sessions _)) h.locks h.grantedOrders
  | commit => exact hw.commit
  | rollback =>
    exact hw.move (.of_nil rfl rfl trivial) (fun _ h => (List.not_mem_nil h).elim)
      fun _ h => (List.not_mem_nil h).elim

/-! ## Runs -/

namespace PaymentWorld

/-- States to start from: no session is open. A paid order may still lack its entitlement. -/
structure Start (w : PaymentWorld) : Prop where
  ids : (w.orders.map (·.id)).Nodup
  lifecycle : ∀ o ∈ w.orders, o.CkLifecycle ∧ o.status ≠ .created
  sources : (w.entitlements.map (·.sourcePaymentOrderId)).Nodup
  granted : ∀ e ∈ w.entitlements, ∃ o ∈ w.orders, Grants o e
  idle : ∀ i, w.sessions i = .idle

/-- No paid order lacks its entitlement. -/
def Settled (w : PaymentWorld) : Prop :=
  ∀ o ∈ w.orders, o.status = .paid → ∃ e ∈ w.entitlements, Grants o e

/-- Every order keeps its row, which at most advances. -/
def Advances (w w' : PaymentWorld) : Prop :=
  ∀ o ∈ w.orders, ∃ o', w'.orders.filter (·.id = o.id) = [o'] ∧ OrderAdvances o o'

/-- The ends of the periods that a client has paid for and that cover a time. -/
def paidUntil (w : PaymentWorld) (clientId : Uuid) (t : Timestamp) : Set Timestamp :=
  {x | ∃ o ∈ w.orders, o.status = .paid ∧ o.anonymousClientId = clientId ∧
    ∃ paidAt ∈ o.paidAt, paidAt ≤ t ∧ t < x ∧
      x = paidAt + seconds o.entitlementDurationSeconds}

theorem Start.sound (h : w.Start) : w.Sound where
  ids := h.ids
  lifecycle := h.lifecycle
  sources := h.sources
  granted := h.granted
  locks i j _ := by rw [h.idle]; exact fun _ h => (List.not_mem_nil h).elim
  grantedOrders i j _ := by rw [h.idle]; exact fun _ h => (List.not_mem_nil h).elim
  sessions i := by rw [h.idle]; exact .of_nil rfl rfl trivial

theorem Sound.run (hw : w.Sound) (h : ReflTransGen PaymentStep w w') : w'.Sound :=
  invariant_run PaymentStep.sound h hw

theorem Sound.grants (hw : w.Sound) (horder : order ∈ w.orders)
    (hentitlement : entitlement ∈ w.entitlements)
    (hsource : entitlement.sourcePaymentOrderId = order.id) : Grants order entitlement := by
  obtain ⟨o, ho, hgrants⟩ := hw.granted entitlement hentitlement
  obtain rfl := List.inj_on_of_nodup_map hw.ids ho horder (hgrants.source.symm.trans hsource)
  exact hgrants

/-- Under the invariant, the entitlement of a paid order is unique. -/
theorem Sound.grantedOnce (hw : w.Sound) (horder : order ∈ w.orders)
    (hgranted : ∃ e ∈ w.entitlements, e.sourcePaymentOrderId = order.id) : GrantedOnce w order := by
  obtain ⟨e, he, hsource⟩ := hgranted
  refine ⟨horder, e, hw.grants horder he hsource, ?_⟩
  rw [← hsource]
  exact filter_key hw.sources he

/-! ## What commits keep -/

theorem Advances.refl (hw : w.Sound) : w.Advances w :=
  fun o ho => ⟨o, filter_key hw.ids ho, .refl o⟩

theorem Advances.trans {w'' : PaymentWorld} (h : w.Advances w') (h' : w'.Advances w'') :
    w.Advances w'' := by
  intro o ho
  obtain ⟨o', hfilter, hadvances⟩ := h o ho
  have ho' : o' ∈ w'.orders := List.mem_of_mem_filter (hfilter ▸ List.mem_singleton_self o')
  obtain ⟨o'', hfilter', hadvances'⟩ := h' o' ho'
  rw [hadvances.id_eq] at hfilter'
  exact ⟨o'', hfilter', hadvances.trans hadvances'⟩

end PaymentWorld

open PaymentWorld

theorem PaymentStep.advances (hw : w.Sound) (h : PaymentStep w w') : w.Advances w' := by
  have hw' := h.sound hw
  cases h with
  | statement | rollback => exact fun o ho => ⟨o, filter_key hw.ids ho, .refl o⟩
  | @commit i =>
    intro o ho
    obtain ⟨o', ho', hid, hadvances⟩ :=
      (hw.sessions i).advances.published OrderAdvances.refl ho
    refine ⟨o', ?_, hadvances⟩
    have hfilter := filter_key hw'.ids ho'
    rwa [show o'.id = o.id from hid] at hfilter

/-- A commit that closes a call settles every order that it pays. -/
theorem PaymentStep.settled (hw : w.Sound) (hsettled : w.Settled) (h : PaymentStep w w') :
    w'.Settled := by
  have hw' := h.sound hw
  cases h with
  | statement | rollback => exact hsettled
  | @commit i hreturned =>
    intro o ho hpaid
    have hsource : ∃ e ∈ (w.commit i).entitlements, e.sourcePaymentOrderId = o.id := by
      rcases mem_upsert.mp ho with hwritten | ⟨ho, _⟩
      · have hknown := (hw.sessions i).known
        simp only [PaymentWorld.commit]
        cases hsession : w.sessions i with
        | ordered =>
          rw [hsession] at hknown hwritten
          exact absurd hpaid (hknown o hwritten)
        | expiring =>
          rw [hsession] at hknown hwritten
          exact absurd hpaid (hknown.1 o hwritten)
        | accepted row transitioned =>
          rw [hsession] at hknown hwritten
          obtain ⟨_, _, hgranted⟩ := hknown
          have hrow : o = row := by
            cases transitioned with
            | false => exact (List.not_mem_nil hwritten).elim
            | true => exact List.mem_singleton.mp hwritten
          exact hrow ▸ hgranted
        | paid => rw [hsession] at hreturned; exact hreturned.elim
        | idle | creating | found | called | reconciling =>
          rw [hsession] at hwritten
          exact (List.not_mem_nil hwritten).elim
      · obtain ⟨e, he, hgrants⟩ := hsettled o ho hpaid
        exact ⟨e, List.mem_append_right _ he, hgrants.source⟩
    obtain ⟨e, he, hsource⟩ := hsource
    exact ⟨e, he, hw'.grants ho he hsource⟩

theorem PaymentStep.grantedOnce (hw : w.Sound) (hgranted : GrantedOnce w order)
    (h : PaymentStep w w') : GrantedOnce w' order := by
  have hw' := h.sound hw
  obtain ⟨horder, e, hgrants, hfilter⟩ := hgranted
  cases h with
  | statement | rollback => exact ⟨horder, e, hgrants, hfilter⟩
  | @commit i =>
    have he : e ∈ w.entitlements := List.mem_of_mem_filter (hfilter ▸ List.mem_singleton_self e)
    exact hw'.grantedOnce ((hw.sessions i).mem_upsert horder (.inl hgrants.paid))
      ⟨e, List.mem_append_right _ he, hgrants.source⟩

/-- The commit of an accepted callback grants its order. -/
theorem PaymentWorld.Sound.accepted {transitioned : Bool} {granted : List PremiumEntitlement}
    (hw : w.Sound) (hsession : w.sessions i = .accepted row transitioned granted) :
    GrantedOnce (w.commit i) row := by
  have hs := hw.sessions i
  rw [hsession] at hs
  obtain ⟨hpaid, hrow, hgranted⟩ := hs.known
  have hmem : row ∈ (w.commit i).orders := by
    simp only [PaymentWorld.commit, hsession]
    cases transitioned with
    | false => exact hs.mem_upsert (hrow rfl) (.inl hpaid)
    | true => exact mem_upsert.mpr (.inl List.mem_cons_self)
  refine hw.commit.grantedOnce hmem ?_
  simpa only [PaymentWorld.commit, hsession, PaymentSession.grants] using hgranted

/-! ## Status -/

theorem getActiveForClient_eq_some
    (h : getActiveForClient clientId t entitlements = some entitlement) :
    (entitlement ∈ entitlements ∧ entitlement.anonymousClientId = clientId ∧
        entitlement.startsAt ≤ t ∧ t < entitlement.expiresAt) ∧
      ∀ e ∈ entitlements, e.anonymousClientId = clientId → e.startsAt ≤ t → t < e.expiresAt →
        e.expiresAt ≤ entitlement.expiresAt := by
  obtain ⟨hmem, hlast⟩ := head?_firstBy_eq_some h
  refine ⟨by simpa using hmem, fun e he hclient hstarts hexpires => ?_⟩
  exact Int.neg_le_neg_iff.mp (hlast e (by simpa using ⟨he, hclient, hstarts, hexpires⟩))

theorem getActiveForClient_eq_none (h : getActiveForClient clientId t entitlements = none) :
    ∀ e ∈ entitlements, e.anonymousClientId = clientId → e.startsAt ≤ t → ¬ t < e.expiresAt := by
  intro e he hclient hstarts hexpires
  have hnone := head?_firstBy_eq_none h
  simpa [hclient, hstarts, hexpires] using List.filter_eq_nil_iff.mp hnone e he

/-- What `status_for_client` reports is what has been paid for. -/
theorem PaymentWorld.Sound.status (hw : w.Sound) (hsettled : w.Settled) :
    ((statusForClient clientId t w.entitlements).isPremium = true ↔
        (w.paidUntil clientId t).Nonempty) ∧
      ∀ x, (statusForClient clientId t w.entitlements).premiumExpiresAt = some x ↔
        IsGreatest (w.paidUntil clientId t) x := by
  have hpaid : ∀ x ∈ w.paidUntil clientId t, ∃ e ∈ w.entitlements,
      e.anonymousClientId = clientId ∧ e.startsAt ≤ t ∧ t < e.expiresAt ∧ e.expiresAt = x := by
    rintro x ⟨o, ho, hstatus, hclient, paidAt, hpaidAt, hle, hlt, rfl⟩
    obtain ⟨e, he, hgrants⟩ := hsettled o ho hstatus
    obtain rfl : paidAt = e.startsAt := Option.some.inj (hpaidAt.symm.trans hgrants.startsAt)
    exact ⟨e, he, hgrants.client.trans hclient, hle, hgrants.expiresAt ▸ hlt, hgrants.expiresAt⟩
  have hgranted : ∀ e ∈ w.entitlements, e.anonymousClientId = clientId → e.startsAt ≤ t →
      t < e.expiresAt → e.expiresAt ∈ w.paidUntil clientId t := by
    intro e he hclient hstarts hexpires
    obtain ⟨o, ho, hgrants⟩ := hw.granted e he
    exact ⟨o, ho, hgrants.paid, hgrants.client.symm.trans hclient, e.startsAt, hgrants.startsAt,
      hstarts, hexpires, hgrants.expiresAt⟩
  unfold statusForClient
  cases hactive : getActiveForClient clientId t w.entitlements with
  | none =>
    have hempty : w.paidUntil clientId t = ∅ := by
      refine Set.eq_empty_of_forall_notMem fun x hx => ?_
      obtain ⟨e, he, hclient, hstarts, hexpires, _⟩ := hpaid x hx
      exact getActiveForClient_eq_none hactive e he hclient hstarts hexpires
    simp [capabilityFromEntitlement, hempty, IsGreatest]
  | some entitlement =>
    obtain ⟨⟨hmem, hclient, hstarts, hexpires⟩, hlast⟩ := getActiveForClient_eq_some hactive
    have hgreatest : IsGreatest (w.paidUntil clientId t) entitlement.expiresAt := by
      refine ⟨hgranted _ hmem hclient hstarts hexpires, fun x hx => ?_⟩
      obtain ⟨e, he, hclient, hstarts, hexpires, rfl⟩ := hpaid x hx
      exact hlast e he hclient hstarts hexpires
    refine ⟨⟨fun _ => ⟨_, hgreatest.1⟩, fun _ => rfl⟩, fun x => ?_⟩
    simp only [capabilityFromEntitlement, Option.some.injEq]
    exact ⟨fun h => h ▸ hgreatest, fun h => hgreatest.unique h⟩

/-! ## Exactly once -/

/-- Payments grant Premium exactly once, over every interleaving of the calls. -/
theorem premium_granted_once (hstart : w₀.Start) (hrun : ReflTransGen PaymentStep w₀ w) :
    (∀ w', ReflTransGen PaymentStep w w' → w.Advances w') ∧
      (∀ i row transitioned granted w', w.sessions i = .accepted row transitioned granted →
        ReflTransGen PaymentStep (w.commit i) w' → GrantedOnce w' row) ∧
      (∀ order ∈ w.orders, order.status = .expired →
        ∀ e ∈ w.entitlements, e.sourcePaymentOrderId ≠ order.id) ∧
      (w₀.Settled → ∀ clientId t,
        ((statusForClient clientId t w.entitlements).isPremium = true ↔
            (w.paidUntil clientId t).Nonempty) ∧
          ∀ x, (statusForClient clientId t w.entitlements).premiumExpiresAt = some x ↔
            IsGreatest (w.paidUntil clientId t) x) := by
  have hw := hstart.sound.run hrun
  refine ⟨fun w' hlater => ?_, fun i row transitioned granted w' hsession hlater => ?_,
    fun order horder hexpired e he hsource => ?_, fun hsettled clientId t => hw.status ?_⟩
  · have hlast : w'.Sound ∧ w.Advances w' :=
      invariant_run (I := fun u => u.Sound ∧ w.Advances u)
        (fun hu hstep => ⟨hstep.sound hu.1, hu.2.trans (hstep.advances hu.1)⟩) hlater
        ⟨hw, .refl hw⟩
    exact hlast.2
  · have hlast : w'.Sound ∧ GrantedOnce w' row :=
      invariant_run (I := fun u => u.Sound ∧ GrantedOnce u row)
        (fun hu hstep => ⟨hstep.sound hu.1, hstep.grantedOnce hu.1 hu.2⟩) hlater
        ⟨hw.commit, hw.accepted hsession⟩
    exact hlast.2
  · have hpaid := (hw.grants horder he hsource).paid
    rw [hexpired] at hpaid
    cases hpaid
  · have hlast : w.Sound ∧ w.Settled :=
      invariant_run (I := fun u => u.Sound ∧ u.Settled)
        (fun hu hstep => ⟨hstep.sound hu.1, hstep.settled hu.1 hu.2⟩) hrun
        ⟨hstart.sound, hsettled⟩
    exact hlast.2

/-! A callback that pays an order at time 20. -/

def sampleService : PaymentService where
  robokassaMode := "test"
  premiumTestCheckoutVisible := true
  robokassaTestAmountMinor := 19900
  robokassaReceiptTax := "none"
  robokassaReceiptPaymentMethod := "full_payment"
  robokassaOrderTtlSeconds := 1800
  robokassaTestPassword2 := "secret"
  sha256 text := if text = "199.00:7:secret"
    then "22190966c04ee147838af9ef27db79dfce88920d2510fddbb83d2b15201b7e1a" else ""

def sampleCallback : Callback :=
  ⟨"199.00", 7, "22190966C04EE147838AF9EF27DB79DFCE88920D2510FDDBB83D2B15201B7E1A"⟩

def sampleOrder : PaymentOrder where
  id := 3
  anonymousClientId := 1
  provider := "robokassa"
  providerInvoiceId := 7
  productCode := "premium_24h"
  amountMinor := 19900
  currency := "RUB"
  entitlementDurationSeconds := 86400
  status := .pending
  isTest := true
  receiptJson := ""
  creationIdempotencyHash := ""
  createdAt := 10
  updatedAt := 10
  pendingAt := some 10
  paidAt := none
  providerCallbackAt := none
  expiresAt := 1800000010

def samplePaidOrder : PaymentOrder :=
  { sampleOrder with
    status := .paid, paidAt := some 20, providerCallbackAt := some 20, updatedAt := 20 }

def sampleWorld : PaymentWorld := ⟨[sampleOrder], [], fun _ => .idle⟩

def sampleAccepted : PaymentWorld :=
  ((sampleWorld.move 0 (.called sampleService sampleCallback)).move 0
    (.paid samplePaidOrder true)).move 0
    (.accepted samplePaidOrder true [⟨5, 1, 3, "premium_24h", 20, 86400000020, 21⟩])

theorem sampleWorld_start : sampleWorld.Start where
  ids := by decide
  lifecycle := by decide
  sources := by decide
  granted := nofun
  idle _ := rfl

theorem sample_accepts : ReflTransGen PaymentStep sampleWorld sampleAccepted := by
  refine .tail (.tail (.single (.statement ?_)) (.statement ?_)) (.statement ?_)
  · exact .call (List.mem_singleton_self sampleOrder) rfl (by decide +kernel)
  · refine @Statement.pay _ _ _ _ sampleOrder samplePaidOrder 20 true
      (List.mem_singleton_self sampleOrder) rfl (fun j hj => ?_) (by decide +kernel)
      (by decide +kernel)
    rw [PaymentWorld.move_session_ne hj]
    exact List.not_mem_nil
  · refine @Statement.grant _ _ samplePaidOrder true true 5 21 _ (by decide +kernel)
      fun _ j hj => ?_
    rw [PaymentWorld.move_session_ne hj, PaymentWorld.move_session_ne hj]
    exact List.not_mem_nil

theorem premium_granted_once_sample : GrantedOnce (sampleAccepted.commit 0) samplePaidOrder :=
  (premium_granted_once sampleWorld_start sample_accepts).2.1 0 _ _ _ _ rfl .refl

end FetchNow
