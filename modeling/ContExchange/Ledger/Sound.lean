import ContExchange.Ledger.Operations

/-!
# Ledger: the invariant of the books

`AccountOk` is the invariant of one balance, `Sound` that of the books: every
account is in order, no reservation is negative, and the reserved amount of a
user and currency is the sum of the outstanding reservations.

Reserving, releasing, the terminal order update and the sweep keep the books
sound without further conditions.
-/

namespace ContExchange
namespace Ledger

open Common Lib AList Decimal Table LedgerUseCases Reservation

/-- A balance with `fees` charged so far: at most `places` decimal places, no
negative amount apart from the fees, and amounts that stay within the mantissa. -/
structure AccountOk (places : Int) (b : Balance) (fees : ℚ) : Prop where
  available_scale : b.available.OfScale places
  reserved_scale : b.reserved.OfScale places
  fees_nonneg : 0 ≤ fees
  available_nonneg : 0 ≤ b.available.toRat + fees
  available_ge : -Decimal.limit places ≤ b.available.toRat
  reserved_nonneg : 0 ≤ b.reserved.toRat
  reserved_le : b.reserved.toRat ≤ Decimal.limit places
  total_le : b.available.toRat + b.reserved.toRat ≤ Decimal.limit places

namespace AccountOk

section Moves

variable {places : Int} {b : Balance} {fees : ℚ} {amount : Decimal}

theorem of_values {b' : Balance} {available reserved : ℚ} (hav : b'.available.toRat = available)
    (hrv : b'.reserved.toRat = reserved) (hscale : b'.available.OfScale places)
    (hscale' : b'.reserved.OfScale places) (hfees : 0 ≤ fees) (hnonneg : 0 ≤ available + fees)
    (hge : -Decimal.limit places ≤ available) (hres : 0 ≤ reserved)
    (hle : reserved ≤ Decimal.limit places) (htotal : available + reserved ≤ Decimal.limit places) :
    AccountOk places b' fees := by
  subst hav hrv
  exact ⟨hscale, hscale', hfees, hnonneg, hge, hres, hle, htotal⟩

section Amounts

variable (h : AccountOk places b fees) (hscale : amount.OfScale places) (hnn : 0 ≤ amount.toRat)

include h hscale hnn

theorem reserve (hle : amount.toRat ≤ b.available.toRat) :
    (b.reserve amount).available.toRat = b.available.toRat - amount.toRat ∧
      (b.reserve amount).reserved.toRat = b.reserved.toRat + amount.toRat ∧
      AccountOk places (b.reserve amount) fees := by
  have htotal := h.total_le
  have hres := h.reserved_nonneg
  have hfees := h.fees_nonneg
  have hlimit := limit_nonneg places
  have hsub : Decimal.SubExact b.available amount :=
    subExact_of_limit h.available_scale hscale (abs_le.mpr ⟨by linarith, by linarith⟩)
  have hadd : Decimal.AddExact b.reserved amount :=
    addExact_of_limit h.reserved_scale hscale (abs_le.mpr ⟨by linarith, by linarith⟩)
  have hav := sub_toRat hsub
  have hrv := add_toRat hadd
  refine ⟨hav, hrv, of_values hav hrv (sub_ofScale h.available_scale hscale hsub)
    (add_ofScale h.reserved_scale hscale hadd) hfees ?_ ?_ ?_ ?_ ?_⟩ <;> linarith

theorem release (hle : amount.toRat ≤ b.reserved.toRat) :
    (b.release amount).reserved.toRat = b.reserved.toRat - amount.toRat ∧
      AccountOk places (b.release amount) fees := by
  have htotal := h.total_le
  have hres := h.reserved_le
  have hnonneg := h.available_nonneg
  have hge := h.available_ge
  have hlimit := limit_nonneg places
  have hsub : Decimal.SubExact b.reserved amount :=
    subExact_of_limit h.reserved_scale hscale (abs_le.mpr ⟨by linarith, by linarith⟩)
  have hadd : Decimal.AddExact b.available amount :=
    addExact_of_limit h.available_scale hscale (abs_le.mpr ⟨by linarith, by linarith⟩)
  have hrv := sub_toRat hsub
  have hav := add_toRat hadd
  refine ⟨hrv, of_values hav hrv (add_ofScale h.available_scale hscale hadd)
    (sub_ofScale h.reserved_scale hscale hsub) h.fees_nonneg ?_ ?_ ?_ ?_ ?_⟩ <;> linarith

theorem spend (hle : amount.toRat ≤ b.reserved.toRat) :
    (b.spend amount).reserved.toRat = b.reserved.toRat - amount.toRat ∧
      AccountOk places (b.spend amount) fees := by
  have htotal := h.total_le
  have hres := h.reserved_le
  have hlimit := limit_nonneg places
  have hsub : Decimal.SubExact b.reserved amount :=
    subExact_of_limit h.reserved_scale hscale (abs_le.mpr ⟨by linarith, by linarith⟩)
  have hrv := sub_toRat hsub
  refine ⟨hrv, of_values rfl hrv h.available_scale (sub_ofScale h.reserved_scale hscale hsub)
    h.fees_nonneg h.available_nonneg h.available_ge ?_ ?_ ?_⟩
  · linarith
  · linarith
  · change b.available.toRat + _ ≤ _
    linarith

theorem credit
    (hroom : b.available.toRat + b.reserved.toRat + amount.toRat ≤ Decimal.limit places) :
    (b.credit amount).available.toRat = b.available.toRat + amount.toRat ∧
      AccountOk places (b.credit amount) fees := by
  have hres := h.reserved_nonneg
  have hnonneg := h.available_nonneg
  have hge := h.available_ge
  have hadd : Decimal.AddExact b.available amount :=
    addExact_of_limit h.available_scale hscale (abs_le.mpr ⟨by linarith, by linarith⟩)
  have hav := add_toRat hadd
  refine ⟨hav, of_values hav rfl (add_ofScale h.available_scale hscale hadd)
    h.reserved_scale h.fees_nonneg ?_ ?_ hres h.reserved_le ?_⟩
  · linarith
  · linarith
  · change _ + b.reserved.toRat ≤ _
    linarith

end Amounts

theorem charge (h : AccountOk places b fees) (hscale : amount.OfScale places)
    (hroom : b.available.toRat + b.reserved.toRat - amount.toRat ≤ Decimal.limit places)
    (hge : -Decimal.limit places ≤ b.available.toRat - amount.toRat) :
    (b.charge amount).available.toRat = b.available.toRat - amount.toRat ∧
      AccountOk places (b.charge amount) (fees + max amount.toRat 0) := by
  have hres := h.reserved_nonneg
  have hnonneg := h.available_nonneg
  have hfees := h.fees_nonneg
  have hmax := le_max_left amount.toRat 0
  have hmax' := le_max_right amount.toRat 0
  have hsub : Decimal.SubExact b.available amount :=
    subExact_of_limit h.available_scale hscale (abs_le.mpr ⟨by linarith, by linarith⟩)
  have hav := sub_toRat hsub
  refine ⟨hav, of_values hav rfl (sub_ofScale h.available_scale hscale hsub)
    h.reserved_scale ?_ ?_ ?_ hres h.reserved_le ?_⟩
  · linarith
  · linarith
  · linarith
  · change _ + b.reserved.toRat ≤ _
    linarith

end Moves

end AccountOk

def Reservation.held (user currency : String) (r : Reservation) : ℚ :=
  if user = r.userId ∧ currency = r.currency then r.amount.toRat else 0

def outstanding (s : LedgerUseCases) (user currency : String) : ℚ :=
  s.reservations.sum (fun _ r => r.held user currency)

/-- Safety: no negative balance before fees, and the reserved amount is the sum
of the outstanding reservations. -/
def Safe (s : LedgerUseCases) (fees : String → String → ℚ) : Prop :=
  ∀ user currency,
    0 ≤ (s.balance user currency).available.toRat + fees user currency ∧
      0 ≤ (s.balance user currency).reserved.toRat ∧
      (s.balance user currency).reserved.toRat = outstanding s user currency

/-- The invariant of the books. -/
structure Sound
    (places : Int) (s : LedgerUseCases) (fees : String → String → ℚ) : Prop where
  account : ∀ user currency,
    AccountOk places (s.balance user currency) (fees user currency)
  record : ∀ id r, s.reservations.lookup id = some r →
    r.amount.OfScale places ∧ 0 ≤ r.amount.toRat
  reserved_eq : ∀ user currency,
    (s.balance user currency).reserved.toRat = outstanding s user currency

variable {r : Reservation}

theorem Reservation.held_nonneg (h : 0 ≤ r.amount.toRat) (user currency : String) :
    0 ≤ r.held user currency := by
  unfold held
  split
  · exact h
  · exact le_rfl

theorem held_add_outstanding_erase {s : LedgerUseCases} {id : String}
    (h : s.reservations.lookup id = some r) (user currency : String) :
    r.held user currency + outstanding (s.eraseReservation id) user currency =
      outstanding s user currency :=
  sum_erase_of_lookup (fun _ r => r.held user currency) h

theorem lookup_eraseReservation {s : LedgerUseCases} {id key : String}
    (h : (s.eraseReservation id).reservations.lookup key = some r) :
    s.reservations.lookup key = some r := by
  change (s.reservations.erase id).lookup key = some r at h
  by_cases hkey : key = id
  · subst hkey
    simp at h
  · rwa [lookup_erase_ne hkey] at h

namespace Sound

section Moves

variable
  {places : Int}
  {s : LedgerUseCases}
  {fees : String → String → ℚ}

theorem safe (h : Sound places s fees) : Safe s fees := by
  intro user currency
  have hacc := h.account user currency
  exact ⟨hacc.available_nonneg, hacc.reserved_nonneg, h.reserved_eq user currency⟩

variable {r : Reservation} {id : String}

theorem record_le_reserved (h : Sound places s fees) (hr : s.reservations.lookup id = some r) :
    r.amount.toRat ≤ (s.balance r.userId r.currency).reserved.toRat := by
  have hsum := held_add_outstanding_erase hr r.userId r.currency
  have hheld : r.held r.userId r.currency = r.amount.toRat := by
    simp [held]
  have hrest : 0 ≤ outstanding (s.eraseReservation id) r.userId r.currency := by
    apply sum_nonneg
    intro key r' hr'
    exact held_nonneg (h.record key r' (lookup_eraseReservation hr')).2 _ _
  rw [h.reserved_eq]
  linarith

theorem modifyBalance (h : Sound places s fees) {user currency : String} {f : Balance → Balance}
    {fees' : String → String → ℚ}
    (hacc : AccountOk places (f (s.balance user currency)) (fees' user currency))
    (hreserved : (f (s.balance user currency)).reserved = (s.balance user currency).reserved)
    (hfees : ∀ u c, ¬ (u = user ∧ c = currency) → fees' u c = fees u c) :
    Sound places (s.modifyBalance user currency f) fees' := by
  refine ⟨?_, h.record, ?_⟩
  · intro u c
    rw [balance_modifyBalance]
    by_cases huc : u = user ∧ c = currency
    · obtain ⟨rfl, rfl⟩ := huc
      simpa using hacc
    · rw [if_neg huc, hfees u c huc]
      exact h.account u c
  · intro u c
    change _ = outstanding s u c
    rw [balance_modifyBalance, ← h.reserved_eq]
    by_cases huc : u = user ∧ c = currency
    · obtain ⟨rfl, rfl⟩ := huc
      rw [if_pos ⟨rfl, rfl⟩, hreserved]
    · rw [if_neg huc]

/-- A change of one balance together with the reservations: the reserved amount
of the balance and the outstanding sum move by the same amount. -/
theorem modifyReserved
    (h : Sound places s fees)
    {user currency : String} {f : Balance → Balance}
    {table : Table String Reservation} (moved : ℚ)
    (hacc : AccountOk places (f (s.balance user currency)) (fees user currency))
    (hreserved : (f (s.balance user currency)).reserved.toRat =
      (s.balance user currency).reserved.toRat + moved)
    (hrecord : ∀ id r, table.lookup id = some r → r.amount.OfScale places ∧ 0 ≤ r.amount.toRat)
    (hsum : ∀ u c, table.sum (fun _ r => held u c r) =
      outstanding s u c + if u = user ∧ c = currency then moved else 0) :
    Sound places { s.modifyBalance user currency f with reservations := table } fees := by
  refine ⟨?_, hrecord, ?_⟩
  · intro u c
    change AccountOk places ((s.modifyBalance user currency f).balance u c) _
    rw [balance_modifyBalance]
    by_cases huc : u = user ∧ c = currency
    · obtain ⟨rfl, rfl⟩ := huc
      simpa using hacc
    · rw [if_neg huc]
      exact h.account u c
  · intro u c
    change ((s.modifyBalance user currency f).balance u c).reserved.toRat =
      table.sum (fun _ r => held u c r)
    rw [hsum, balance_modifyBalance, ← h.reserved_eq]
    by_cases huc : u = user ∧ c = currency
    · obtain ⟨rfl, rfl⟩ := huc
      simpa using hreserved
    · simp [huc]

theorem eraseReservation (h : Sound places s fees) (hr : s.reservations.lookup id = some r)
    (hzero : r.amount.toRat = 0) : Sound places (s.eraseReservation id) fees := by
  refine ⟨h.account, fun key r' hr' => h.record key r' (lookup_eraseReservation hr'), ?_⟩
  intro u c
  have hsum := held_add_outstanding_erase hr u c
  have hheld : r.held u c = 0 := by
    unfold held
    rw [hzero]
    simp
  rw [hheld, zero_add] at hsum
  rw [hsum]
  exact h.reserved_eq u c

theorem releaseRecord (h : Sound places s fees) (hr : s.reservations.lookup id = some r) :
    Sound places
      ((s.modifyBalance r.userId r.currency (·.release r.amount)).eraseReservation id)
      fees := by
  obtain ⟨hscale, hnn⟩ := h.record id r hr
  obtain ⟨hrv, hacc⟩ := (h.account r.userId r.currency).release hscale hnn (h.record_le_reserved hr)
  refine h.modifyReserved (-r.amount.toRat) hacc ?_ ?_ ?_
  · rw [hrv, sub_eq_add_neg]
  · intro key r' hr'
    exact h.record key r' (lookup_eraseReservation hr')
  · intro u c
    have hsum := held_add_outstanding_erase hr u c
    change outstanding (s.eraseReservation id) u c = _
    rw [← hsum]
    unfold held
    by_cases huc : u = r.userId ∧ c = r.currency
    · rw [if_pos huc, if_pos huc]
      ring
    · rw [if_neg huc, if_neg huc]
      ring

theorem releaseFunds (h : Sound places s fees) (id : String) :
    Sound places (releaseFunds s id) fees := by
  unfold Ledger.releaseFunds
  cases hr : s.reservations.lookup id with
  | none => exact h
  | some r => exact h.releaseRecord hr

theorem reserveFunds
    (h : Sound places s fees) (hplaces : places ≤ 18)
    {req : ReserveFundsRequest}
    (hreq : s.reservations.lookup req.reservationId = none →
      req.amount.OfScale places ∧ 0 ≤ req.amount.toRat) :
    Sound places (reserveFunds s req).1 fees := by
  unfold Ledger.reserveFunds
  cases hr : s.reservations.lookup req.reservationId with
  | some r => exact h
  | none =>
      obtain ⟨hscale, hnn⟩ := hreq hr
      have hacc := h.account req.userId req.currency
      by_cases hcmp :
          Decimal.cmp (s.balance req.userId req.currency).available req.amount < 0
      · simp only [if_pos hcmp]
        exact h.modifyBalance hacc rfl (fun _ _ _ => rfl)
      · simp only [if_neg hcmp]
        have hle : req.amount.toRat ≤ (s.balance req.userId req.currency).available.toRat := by
          rw [not_lt, cmp_nonneg_iff
            (hacc.available_scale.scaleOk hplaces) (hscale.scaleOk hplaces)] at hcmp
          exact hcmp
        obtain ⟨-, hrv, hacc'⟩ := hacc.reserve hscale hnn hle
        refine h.modifyReserved req.amount.toRat hacc' hrv ?_ ?_
        · intro key r' hr'
          by_cases hkey : key = req.reservationId
          · subst hkey
            rw [lookup_insert] at hr'
            obtain rfl := Option.some.inj hr'
            exact ⟨hscale, hnn⟩
          · rw [lookup_insert_ne hkey] at hr'
            exact h.record key r' hr'
        · intro u c
          have hsum := sum_insert_of_none (fun _ r => held u c r) hr
            { userId := req.userId
              orderId := req.orderId
              currency := req.currency
              amount := req.amount }
          rw [add_comm] at hsum
          exact hsum

theorem applyOrderUpdate (h : Sound places s fees) (hplaces : places ≤ 18)
    (upd : OrderStateUpdate) : Sound places (applyOrderUpdate s upd) fees := by
  unfold Ledger.applyOrderUpdate
  by_cases hterminal : upd.status.isTerminal
  · rw [if_pos hterminal]
    cases hr : s.reservations.lookup upd.orderId with
    | none => exact h
    | some r =>
        obtain ⟨hscale, hnn⟩ := h.record upd.orderId r hr
        by_cases hpos : 0 < Decimal.cmp r.amount .zero
        · simp only [if_pos hpos]
          exact h.releaseRecord hr
        · simp only [if_neg hpos]
          rw [not_lt, cmp_nonpos_iff (hscale.scaleOk hplaces) scaleOk_zero, toRat_zero] at hpos
          exact h.eraseReservation hr (le_antisymm hpos hnn)
  · rw [if_neg hterminal]
    exact h

theorem sweepReservations (h : Sound places s fees) (hplaces : places ≤ 18) :
    Sound places (sweepReservations s) fees := by
  have hlookup : ∀ id r, (s.reservations.filter keepsReservation).lookup id = some r →
      s.reservations.lookup id = some r := by
    intro id r hr
    rw [lookup_filter, Option.filter_eq_some_iff] at hr
    exact hr.1
  refine ⟨h.account, fun id r hr => h.record id r (hlookup id r hr), ?_⟩
  intro u c
  refine (h.reserved_eq u c).trans (sum_filter_of_zero _ ?_).symm
  intro id r hr hkeep
  obtain ⟨hscale, hnn⟩ := h.record id r hr
  have hzero : r.amount.toRat = 0 := by
    have hok := hscale.scaleOk hplaces
    have hzeroOk : (zeroAt r.amount.scale).ScaleOk := hok
    unfold keepsReservation at hkeep
    rw [decide_eq_false_iff_not, not_lt, cmp_nonpos_iff hok hzeroOk, toRat_zeroAt] at hkeep
    exact le_antisymm hkeep hnn
  unfold held
  rw [hzero]
  simp

end Moves

end Sound

end Ledger
end ContExchange
