import ContExchange.Ledger.Sound

/-!
# Ledger: balance safety over whole runs

The fill path spends from `reserved` without looking at the order's reservation,
so it keeps the books sound when each spending fill is covered by a reservation
that is still there.

* `FillsOk` is what the fills of a batch have to satisfy in the state before it.
* `Sound.step` is the step lemma, `books_safe_of_calls_ok` the result on runs.
* `fill_after_release_overdraws` is a run in which a cancel's release comes
  before the batch that still fills the order.
-/

namespace ContExchange
namespace Ledger

open Common Lib AList Decimal List LedgerUseCases

/-- The value of an amount a fill moves, if it moves one. -/
def valueOf : Option (String × Decimal) → ℚ
  | some (_, amount) => amount.toRat
  | none => 0

/-- The amount a fill of `owner` moves, at the balance it moves it on. -/
def amountAt
    (owner : String) (moved : Option (String × Decimal)) (user currency : String) : ℚ :=
  match moved with
  | some (c, amount) => if user = owner ∧ currency = c then amount.toRat else 0
  | none => 0

def feeOf (fill : FlowFill) (user currency : String) : ℚ :=
  max (amountAt fill.userId (charged fill) user currency) 0

/-- What a fill adds to a balance: the amount received and a negative fee. -/
def inflow (fill : FlowFill) (user currency : String) : ℚ :=
  amountAt fill.userId (received fill) user currency +
    max (-amountAt fill.userId (charged fill) user currency) 0

/-- What the fills of an order spend together. -/
def orderSpend (orderId : String) (fills : List FlowFill) : ℚ :=
  (fills.map (fun fill => if fill.orderId = orderId then valueOf (spent fill) else 0)).sum

/-- The amounts of a fill have at most `places` places and are not negative; the
fee may be. -/
structure FillOk (places : Int) (fill : FlowFill) : Prop where
  spent : ∀ c amount, spent fill = some (c, amount) →
    amount.OfScale places ∧ 0 ≤ amount.toRat
  received : ∀ c amount, received fill = some (c, amount) →
    amount.OfScale places ∧ 0 ≤ amount.toRat
  charged : ∀ c amount, charged fill = some (c, amount) → amount.OfScale places

/-- Every fill that spends something finds its order's reservation, on the
balance it spends from, with an amount that covers all fills of the order. -/
def Covered (s : LedgerUseCases) (fills : List FlowFill) : Prop :=
  ∀ fill ∈ fills, ∀ c amount, spent fill = some (c, amount) → amount.toRat ≠ 0 →
    ∃ r, s.reservations.lookup fill.orderId = some r ∧
      r.userId = fill.userId ∧ r.currency = c ∧
      orderSpend fill.orderId fills ≤ r.amount.toRat

/-- The balances stay within the mantissa whatever the fills add or charge. -/
def Headroom (places : Int) (s : LedgerUseCases) (fills : List FlowFill) : Prop :=
  ∀ user currency,
    (s.balance user currency).available.toRat +
        (s.balance user currency).reserved.toRat +
        (fills.map (fun fill => inflow fill user currency)).sum ≤
      Decimal.limit places ∧
    -Decimal.limit places ≤
      (s.balance user currency).available.toRat -
        (fills.map (fun fill => feeOf fill user currency)).sum

/-- What the fills of a batch have to satisfy in the state before it. -/
structure FillsOk
    (places : Int) (s : LedgerUseCases) (fills : List FlowFill) : Prop where
  fill : ∀ fill ∈ fills, FillOk places fill
  covered : Covered s fills
  headroom : Headroom places s fills

section Fills

variable
  {places : Int}
  {s : LedgerUseCases}
  {fees : String → String → ℚ}
  {fill : FlowFill}

theorem FillOk.received_nonneg (h : FillOk places fill) (user currency : String) :
    0 ≤ amountAt fill.userId (Ledger.received fill) user currency := by
  unfold amountAt
  cases hreceived : Ledger.received fill with
  | none => exact le_rfl
  | some moved =>
      dsimp only
      split
      · exact (h.received moved.1 moved.2 hreceived).2
      · exact le_rfl

theorem lookup_applySpent (hfill : FillOk places fill) {id : String} {r : Reservation}
    (hscale : r.amount.OfScale places)
    (hroom : |r.amount.toRat - valueOf (spent fill)| ≤ Decimal.limit places)
    (hr : s.reservations.lookup id = some r) :
    ∃ amount, (applySpent s fill).reservations.lookup id =
        some { r with amount := amount } ∧
      amount.OfScale places ∧
      amount.toRat = r.amount.toRat - if fill.orderId = id then valueOf (spent fill) else 0 := by
  unfold applySpent
  cases hspent : spent fill with
  | none => exact ⟨r.amount, hr, hscale, by simp [valueOf]⟩
  | some moved =>
      obtain ⟨c, amount⟩ := moved
      simp only [consumeReservation, reservations_modifyBalance]
      rw [hspent] at hroom
      by_cases hid : fill.orderId = id
      · subst hid
        have hexact : Decimal.SubExact r.amount amount :=
          subExact_of_limit hscale (hfill.spent c amount hspent).1 hroom
        refine ⟨Decimal.sub r.amount amount, ?_,
          sub_ofScale hscale (hfill.spent c amount hspent).1 hexact, ?_⟩
        · simp only [hr]
          exact lookup_insert _
        · rw [if_pos rfl]
          exact sub_toRat hexact
      · refine ⟨r.amount, ?_, hscale, by rw [if_neg hid, sub_zero]⟩
        cases hother : s.reservations.lookup fill.orderId with
        | none => exact hr
        | some r' =>
            have hne : id ≠ fill.orderId := fun h => hid h.symm
            exact (lookup_insert_ne hne).trans hr

theorem available_applySpent (user currency : String) :
    ((applySpent s fill).balance user currency).available =
      (s.balance user currency).available := by
  have hconsume : ∀ (t : LedgerUseCases) id amount,
      (consumeReservation t id amount).balance user currency =
        t.balance user currency := by
    intro t id amount
    unfold consumeReservation
    cases t.reservations.lookup id <;> rfl
  unfold applySpent
  cases spent fill with
  | none => rfl
  | some moved =>
      rw [hconsume, balance_modifyBalance]
      split
      · rename_i h
        obtain ⟨rfl, rfl⟩ := h
        rfl
      · rfl

theorem Sound.applySpent
    (h : Sound places s fees) (hfill : FillOk places fill)
    (hcovered : ∀ c amount, spent fill = some (c, amount) → amount.toRat ≠ 0 →
      ∃ r, s.reservations.lookup fill.orderId = some r ∧
        r.userId = fill.userId ∧ r.currency = c ∧ amount.toRat ≤ r.amount.toRat) :
    Sound places (applySpent s fill) fees ∧
      ∀ u c, ((applySpent s fill).balance u c).reserved.toRat ≤ (s.balance u c).reserved.toRat := by
  cases hspent : spent fill with
  | none =>
      have hsame : Ledger.applySpent s fill = s := by
        unfold Ledger.applySpent
        rw [hspent]
      rw [hsame]
      exact ⟨h, fun _ _ => le_rfl⟩
  | some moved =>
      obtain ⟨c, amount⟩ := moved
      obtain ⟨hscale, hnn⟩ := hfill.spent c amount hspent
      -- the spend never exceeds the reserved amount
      have hle : amount.toRat ≤ (s.balance fill.userId c).reserved.toRat := by
        by_cases hzero : amount.toRat = 0
        · rw [hzero]
          exact (h.account fill.userId c).reserved_nonneg
        · obtain ⟨r, hr, huser, hcur, hamount⟩ := hcovered c amount hspent hzero
          have hrec := h.record_le_reserved hr
          rw [huser, hcur] at hrec
          exact hamount.trans hrec
      obtain ⟨hrv, hacc⟩ := (h.account fill.userId c).spend hscale hnn hle
      have hbalance : ∀ t : Table String Reservation, ∀ u d,
          (({ s.modifyBalance fill.userId c (·.spend amount) with
              reservations := t } : LedgerUseCases).balance u d).reserved.toRat ≤
            (s.balance u d).reserved.toRat := by
        intro t u d
        change ((s.modifyBalance fill.userId c (·.spend amount)).balance u d).reserved.toRat ≤ _
        rw [LedgerUseCases.balance_modifyBalance]
        split
        · rename_i hud
          obtain ⟨rfl, rfl⟩ := hud
          rw [hrv]
          linarith
        · exact le_rfl
      cases hr : s.reservations.lookup fill.orderId with
      | none =>
          have hzero : amount.toRat = 0 := by
            by_contra hne
            obtain ⟨r, hr', -⟩ := hcovered c amount hspent hne
            rw [hr] at hr'
            cases hr'
          have hstep : Ledger.applySpent s fill =
              { s.modifyBalance fill.userId c (·.spend amount) with
                reservations := s.reservations } := by
            unfold Ledger.applySpent consumeReservation
            rw [hspent]
            simp only [LedgerUseCases.reservations_modifyBalance, hr]
            rfl
          rw [hstep]
          refine ⟨?_, hbalance s.reservations⟩
          refine h.modifyReserved 0 hacc ?_ h.record ?_
          · rw [hrv, hzero, sub_zero, add_zero]
          · intro u d
            simp [outstanding]
      | some r =>
          obtain ⟨hrscale, hrnn⟩ := h.record fill.orderId r hr
          have hamount : amount.toRat ≤ r.amount.toRat := by
            by_cases hzero : amount.toRat = 0
            · rw [hzero]
              exact hrnn
            · obtain ⟨r', hr', -, -, hamount⟩ := hcovered c amount hspent hzero
              rw [hr] at hr'
              obtain rfl := Option.some.inj hr'
              exact hamount
          have hrle : r.amount.toRat ≤ Decimal.limit places :=
            (h.record_le_reserved hr).trans (h.account r.userId r.currency).reserved_le
          have hexact : Decimal.SubExact r.amount amount :=
            subExact_of_limit hrscale hscale (abs_le.mpr ⟨by linarith, by linarith⟩)
          have hvalue := sub_toRat hexact
          have hstep : Ledger.applySpent s fill =
              { s.modifyBalance fill.userId c (·.spend amount) with
                reservations := s.reservations.insert fill.orderId
                  { r with amount := Decimal.sub r.amount amount } } := by
            unfold Ledger.applySpent consumeReservation
            rw [hspent]
            simp only [LedgerUseCases.reservations_modifyBalance, hr]
          rw [hstep]
          refine ⟨?_, hbalance _⟩
          refine h.modifyReserved (-amount.toRat) hacc ?_ ?_ ?_
          · rw [hrv, sub_eq_add_neg]
          · intro key r' hr'
            by_cases hkey : key = fill.orderId
            · subst hkey
              rw [lookup_insert] at hr'
              obtain rfl := Option.some.inj hr'
              refine ⟨sub_ofScale hrscale hscale hexact, ?_⟩
              simp only [hvalue]
              linarith
            · rw [lookup_insert_ne hkey] at hr'
              exact h.record key r' hr'
          · intro u d
            have hbefore := held_add_outstanding_erase hr u d
            have hafter := Table.sum_insert (fun _ r => Reservation.held u d r)
              s.reservations fill.orderId
              { r with amount := Decimal.sub r.amount amount }
            rw [hafter, ← hbefore]
            change _ + outstanding (s.eraseReservation fill.orderId) u d = _
            have hheld : Reservation.held u d
                { r with amount := Decimal.sub r.amount amount } =
                r.held u d + if u = fill.userId ∧ d = c then -amount.toRat else 0 := by
              unfold Reservation.held
              simp only [hvalue]
              by_cases hzero : amount.toRat = 0
              · simp [hzero]
              · obtain ⟨r', hr', huser, hcur, -⟩ := hcovered c amount hspent hzero
                rw [hr] at hr'
                obtain rfl := Option.some.inj hr'
                rw [huser, hcur]
                split
                · ring
                · ring
            rw [hheld]
            ring

theorem Sound.applyReceived
    (h : Sound places s fees) (hfill : FillOk places fill)
    (hroom : ∀ u c, (s.balance u c).available.toRat + (s.balance u c).reserved.toRat +
      amountAt fill.userId (received fill) u c ≤ Decimal.limit places) :
    Sound places (applyReceived s fill) fees ∧
      ∀ u c,
        ((applyReceived s fill).balance u c).available.toRat =
          (s.balance u c).available.toRat + amountAt fill.userId (received fill) u c ∧
        ((applyReceived s fill).balance u c).reserved = (s.balance u c).reserved := by
  unfold Ledger.applyReceived amountAt at *
  cases hreceived : received fill with
  | none => exact ⟨h, fun u c => by simp⟩
  | some moved =>
      obtain ⟨c, amount⟩ := moved
      obtain ⟨hscale, hnn⟩ := hfill.received c amount hreceived
      have hroom' := hroom fill.userId c
      simp only [hreceived, and_self, if_true] at hroom'
      obtain ⟨hav, hacc⟩ := (h.account fill.userId c).credit hscale hnn hroom'
      refine ⟨h.modifyBalance hacc rfl (fun _ _ _ => rfl), ?_⟩
      intro u d
      simp only [balance_modifyBalance]
      by_cases hud : u = fill.userId ∧ d = c
      · obtain ⟨rfl, rfl⟩ := hud
        simp only [and_self, if_true]
        exact ⟨hav, rfl⟩
      · simp [hud]

theorem Sound.applyFee
    (h : Sound places s fees) (hfill : FillOk places fill)
    (hroom : ∀ u c,
      (s.balance u c).available.toRat + (s.balance u c).reserved.toRat -
          amountAt fill.userId (charged fill) u c ≤ Decimal.limit places ∧
        -Decimal.limit places ≤ (s.balance u c).available.toRat -
          amountAt fill.userId (charged fill) u c) :
    Sound places (applyFee s fill) (fees + feeOf fill) ∧
      ∀ u c,
        ((applyFee s fill).balance u c).available.toRat =
          (s.balance u c).available.toRat - amountAt fill.userId (charged fill) u c ∧
        ((applyFee s fill).balance u c).reserved = (s.balance u c).reserved := by
  have hbalance : ∀ c amount (u d : String),
      (if c = fill.instrument.quote then
        (s.modifyBalance fill.userId c (·.charge amount)).modifyPosition fill.userId
          fill.instrument.symbol (fun pos =>
            { pos with realisedPnl := Decimal.sub pos.realisedPnl amount })
        else s.modifyBalance fill.userId c (·.charge amount)).balance u d =
      (s.modifyBalance fill.userId c (·.charge amount)).balance u d := by
    intro c amount u d
    split <;> rfl
  cases hcharged : charged fill with
  | none =>
      have hzero : fees + feeOf fill = fees := by
        funext u c
        simp [feeOf, amountAt, hcharged]
      simp only [Ledger.applyFee, hcharged, amountAt, sub_zero, and_self, implies_true, and_true]
      rwa [hzero]
  | some moved =>
      obtain ⟨c, amount⟩ := moved
      have hscale := hfill.charged c amount hcharged
      obtain ⟨hle, hge⟩ := hroom fill.userId c
      simp only [amountAt, hcharged, and_self, if_true] at hle hge
      obtain ⟨hav, hacc⟩ := (h.account fill.userId c).charge hscale hle hge
      have hfee : fees fill.userId c + max amount.toRat 0 = (fees + feeOf fill) fill.userId c := by
        simp [feeOf, amountAt, hcharged]
      rw [hfee] at hacc
      have hsound : Sound places
          (s.modifyBalance fill.userId c (·.charge amount)) (fees + feeOf fill) := by
        refine h.modifyBalance hacc rfl ?_
        intro u d hud
        simp [feeOf, amountAt, hcharged, hud]
      simp only [Ledger.applyFee, hcharged]
      refine ⟨?_, ?_⟩
      · split
        · exact ⟨hsound.account, hsound.record, hsound.reserved_eq⟩
        · exact hsound
      · intro u d
        rw [hbalance, LedgerUseCases.balance_modifyBalance]
        by_cases hud : u = fill.userId ∧ d = c
        · obtain ⟨rfl, rfl⟩ := hud
          simp only [amountAt, and_self, if_true]
          exact ⟨hav, rfl⟩
        · simp [amountAt, hud]

theorem reservations_applyFill :
    (applyFill s fill).reservations = (applySpent s fill).reservations := by
  have hreceived : ∀ t, (applyReceived t fill).reservations = t.reservations := by
    intro t
    unfold applyReceived
    cases received fill <;> rfl
  have hfee : ∀ t, (applyFee t fill).reservations = t.reservations := by
    intro t
    unfold applyFee
    cases charged fill with
    | none => rfl
    | some moved =>
        dsimp only
        split <;> rfl
  unfold applyFill
  rw [hfee, reservations_updatePositionForFill, hreceived]

theorem Sound.updatePositionForFill (h : Sound places s fees) (fill : FlowFill) :
    Sound places (updatePositionForFill s fill) fees :=
  ⟨h.account, h.record, h.reserved_eq⟩

theorem amountAt_charged_le (fill : FlowFill) (u c : String) :
    amountAt fill.userId (charged fill) u c ≤ feeOf fill u c :=
  le_max_left _ _

theorem orderSpend_cons (id : String) (fills : List FlowFill) :
    orderSpend id (fill :: fills) =
      (if fill.orderId = id then valueOf (spent fill) else 0) + orderSpend id fills := by
  simp [orderSpend]

theorem orderSpend_nonneg {fills : List FlowFill} (h : ∀ f ∈ fills, FillOk places f) (id : String) :
    0 ≤ orderSpend id fills := by
  apply sum_nonneg
  intro x hx
  obtain ⟨f, hf, rfl⟩ := mem_map.mp hx
  split
  · cases hspent : spent f with
    | none => exact le_rfl
    | some moved => exact ((h f hf).spent moved.1 moved.2 hspent).2
  · exact le_rfl

/-- The step lemma of the loop over the fills: the books stay sound and the
rest of the fills still satisfies the condition. -/
theorem Sound.applyFill {rest : List FlowFill} (h : Sound places s fees)
    (hok : FillsOk places s (fill :: rest)) :
    Sound places (applyFill s fill) (fees + feeOf fill) ∧
      FillsOk places (applyFill s fill) rest := by
  have hfill := hok.fill fill (by simp)
  have hrest : ∀ f ∈ rest, FillOk places f :=
    fun f hf => hok.fill f (mem_cons_of_mem _ hf)
  have hcovered : ∀ c amount, spent fill = some (c, amount) → amount.toRat ≠ 0 →
      ∃ r, s.reservations.lookup fill.orderId = some r ∧
        r.userId = fill.userId ∧ r.currency = c ∧ amount.toRat ≤ r.amount.toRat := by
    intro c amount hspent hne
    obtain ⟨r, hr, huser, hcur, hle⟩ := hok.covered fill (by simp) c amount hspent hne
    refine ⟨r, hr, huser, hcur, le_trans ?_ hle⟩
    rw [orderSpend_cons, if_pos rfl, hspent]
    have := orderSpend_nonneg hrest fill.orderId
    simp only [valueOf]
    linarith
  obtain ⟨h₁, hres₁⟩ := h.applySpent hfill hcovered
  have hav₁ : ∀ u c, ((Ledger.applySpent s fill).balance u c).available =
      (s.balance u c).available := fun u c => available_applySpent u c
  -- what the fill and the rest of the fills need at one balance
  have hsplit : ∀ u c,
      (s.balance u c).available.toRat + (s.balance u c).reserved.toRat +
          (inflow fill u c + (rest.map (fun f => inflow f u c)).sum) ≤
        Decimal.limit places ∧
      -Decimal.limit places ≤ (s.balance u c).available.toRat -
          (feeOf fill u c + (rest.map (fun f => feeOf f u c)).sum) := by
    intro u c
    simpa using hok.headroom u c
  have hinflow : ∀ u c, 0 ≤ (rest.map (fun f => inflow f u c)).sum := by
    intro u c
    apply sum_nonneg
    intro x hx
    obtain ⟨f, hf, rfl⟩ := mem_map.mp hx
    exact add_nonneg ((hrest f hf).received_nonneg u c) (le_max_right _ _)
  have houtflow : ∀ u c, 0 ≤ (rest.map (fun f => feeOf f u c)).sum := by
    intro u c
    apply sum_nonneg
    intro x hx
    obtain ⟨f, -, rfl⟩ := mem_map.mp hx
    exact le_max_right _ _
  have hrebate : ∀ u c, inflow fill u c = amountAt fill.userId (received fill) u c +
      max (-amountAt fill.userId (charged fill) u c) 0 := fun _ _ => rfl
  obtain ⟨h₂, heff₂⟩ := h₁.applyReceived hfill (by
    intro u c
    have := (hsplit u c).1
    have hmax := le_max_right (-amountAt fill.userId (charged fill) u c) 0
    have := hres₁ u c
    have := hinflow u c
    rw [hav₁]
    rw [hrebate] at *
    linarith)
  obtain ⟨h₃, heff₃⟩ := (h₂.updatePositionForFill fill).applyFee hfill (by
    intro u c
    obtain ⟨hav₂, hres₂⟩ := heff₂ u c
    obtain ⟨hle, hge⟩ := hsplit u c
    rw [balance_updatePositionForFill, hav₂, hres₂, hav₁]
    have hmax := le_max_left (-amountAt fill.userId (charged fill) u c) 0
    have := hres₁ u c
    have := hinflow u c
    have := houtflow u c
    have := amountAt_charged_le fill u c
    have hnn := hfill.received_nonneg u c
    rw [hrebate] at *
    constructor <;> linarith)
  refine ⟨h₃, hrest, ?_, ?_⟩
  · -- every order's reservation went down by what this fill spent of it
    intro f hf c amount hspent hne
    obtain ⟨r, hr, huser, hcur, hle⟩ :=
      hok.covered f (mem_cons_of_mem _ hf) c amount hspent hne
    rw [orderSpend_cons] at hle
    obtain ⟨hrscale, hrnn⟩ := h.record f.orderId r hr
    have hrle : r.amount.toRat ≤ Decimal.limit places :=
      (h.record_le_reserved hr).trans (h.account r.userId r.currency).reserved_le
    have hvalue : 0 ≤ valueOf (spent fill) ∧ valueOf (spent fill) ≤ Decimal.limit places := by
      cases hspent' : spent fill with
      | none => exact ⟨le_rfl, limit_nonneg places⟩
      | some moved =>
          obtain ⟨c', amount'⟩ := moved
          refine ⟨(hfill.spent c' amount' hspent').2, ?_⟩
          by_cases hzero : amount'.toRat = 0
          · simp only [valueOf, hzero]
            exact limit_nonneg places
          · obtain ⟨r', hr', -, -, hle'⟩ := hcovered c' amount' hspent' hzero
            exact (hle'.trans (h.record_le_reserved hr')).trans
              (h.account r'.userId r'.currency).reserved_le
    obtain ⟨left, hleft, -, hleftValue⟩ := lookup_applySpent hfill hrscale
      (abs_le.mpr ⟨by linarith, by linarith⟩) hr
    refine ⟨{ r with amount := left }, ?_, huser, hcur, ?_⟩
    · rw [reservations_applyFill]
      exact hleft
    · simp only [hleftValue]
      linarith
  · intro u c
    obtain ⟨hav₂, hres₂⟩ := heff₂ u c
    obtain ⟨hav₃, hres₃⟩ := heff₃ u c
    obtain ⟨hle, hge⟩ := hsplit u c
    rw [balance_updatePositionForFill] at hav₃ hres₃
    unfold Ledger.applyFill
    rw [hav₃, hres₃, hres₂, hav₂, hav₁]
    have hmax := le_max_left (-amountAt fill.userId (charged fill) u c) 0
    have := hres₁ u c
    have := amountAt_charged_le fill u c
    have hnn := hfill.received_nonneg u c
    rw [hrebate] at *
    constructor <;> linarith

theorem Sound.run_applyFill {fills : List FlowFill} (h : Sound places s fees)
    (hok : FillsOk places s fills) :
    Sound places (run Ledger.applyFill s fills) (fees + (fills.map feeOf).sum) := by
  induction fills generalizing s fees with
  | nil => simpa using h
  | cons fill fills ih =>
      obtain ⟨hfill, hrest⟩ := h.applyFill hok
      have hrun := ih hfill hrest
      rw [add_assoc] at hrun
      simpa using hrun

end Fills

/-- The condition on a call in the state before it.  A release needs none; a
reservation that is new needs an amount that is not negative. -/
def CallOk (places : Int) (s : LedgerUseCases) : Call → Prop
  | .reserveFunds req =>
      s.reservations.lookup req.reservationId = none →
        req.amount.OfScale places ∧ 0 ≤ req.amount.toRat
  | .releaseFunds _ => True
  | .applyBatchResult batch alreadyProcessed =>
      alreadyProcessed = false → FillsOk places s batch.fills

def callFees : Call → String → String → ℚ
  | .applyBatchResult batch false => (batch.fills.map feeOf).sum
  | _ => 0

/-- The books before the first call: nothing is reserved and no balance is
negative or beyond the mantissa. -/
structure Opening (places : Int) (s : LedgerUseCases) : Prop where
  noReservations : s.reservations = ∅
  balance : ∀ user currency,
    (s.balance user currency).available.OfScale places ∧
      (s.balance user currency).reserved.OfScale places ∧
      0 ≤ (s.balance user currency).available.toRat ∧
      (s.balance user currency).available.toRat ≤ Decimal.limit places ∧
      (s.balance user currency).reserved.toRat = 0

/-- An order is reserved once, under its own id, and every fill belongs to an
order that the filled user has reserved before, in the currency it spends. -/
def ReservedOnce : List ReserveFundsRequest → List Call → Prop
  | _, [] => True
  | known, .reserveFunds req :: calls =>
      req.reservationId = req.orderId ∧
        (∀ r ∈ known, r.orderId ≠ req.orderId) ∧
        ReservedOnce (req :: known) calls
  | known, .releaseFunds _ :: calls => ReservedOnce known calls
  | known, .applyBatchResult batch _ :: calls =>
      (∀ fill ∈ batch.fills, ∃ r ∈ known, r.orderId = fill.orderId ∧
        r.userId = fill.userId ∧ (spent fill).map Prod.fst = some r.currency) ∧
        ReservedOnce known calls

section Runs

variable
  {places : Int}
  {s : LedgerUseCases}
  {fees : String → String → ℚ}

theorem Opening.sound (h : Opening places s) : Sound places s 0 := by
  have hlookup : ∀ id, s.reservations.lookup id = none := by
    intro id
    rw [h.noReservations]
    rfl
  refine ⟨?_, ?_, ?_⟩
  · intro user currency
    obtain ⟨hav, hrv, hnn, hle, hzero⟩ := h.balance user currency
    have hlimit := limit_nonneg places
    exact
      { available_scale := hav
        reserved_scale := hrv
        fees_nonneg := le_rfl
        available_nonneg := by simpa using hnn
        available_ge := by linarith
        reserved_nonneg := hzero.ge
        reserved_le := by rw [hzero]; exact hlimit
        total_le := by rw [hzero]; linarith }
  · intro id r hr
    rw [hlookup id] at hr
    cases hr
  · intro user currency
    unfold outstanding
    rw [h.noReservations, (h.balance user currency).2.2.2.2]
    rfl

theorem Sound.step (hplaces : places ≤ 18) {call : Call} (h : Sound places s fees)
    (hok : CallOk places s call) : Sound places (step s call) (fees + callFees call) := by
  cases call with
  | reserveFunds req =>
      have := h.reserveFunds hplaces hok
      simpa [Ledger.step, callFees] using this
  | releaseFunds id =>
      have := h.releaseFunds id
      simpa [Ledger.step, callFees] using this
  | applyBatchResult batch alreadyProcessed =>
      cases alreadyProcessed with
      | true => simpa [Ledger.step, callFees] using h
      | false =>
          have hfills := h.run_applyFill (hok rfl)
          have hupdates := run_preserves
            (fun t => Sound places t (fees + (batch.fills.map feeOf).sum))
            (fun _ upd ht => ht.applyOrderUpdate hplaces upd)
            hfills batch.orderUpdates
          exact hupdates.sweepReservations hplaces

/-- Balance safety: after every call of a run whose calls meet the condition the
books are safe. -/
theorem books_safe_of_calls_ok (places : Int) (hplaces : places ≤ 18)
    (hopening : Opening places s) {calls : List Call}
    (hmeet : StepsMeet step (CallOk places) s calls) (n : Nat) :
    Safe (run step s (calls.take n)) ((calls.take n).map callFees).sum := by
  rw [← List.take_append_drop n calls] at hmeet
  have hrun := run_invariant_total (Sound places) callFees
    (fun _ _ _ hs hok => hs.step hplaces hok) hopening.sound hmeet.prefix
  rw [zero_add] at hrun
  exact hrun.safe

end Runs

theorem balance_demoSeed (user currency : String) :
    demoSeed.balance user currency =
      if user = "demo-user" ∧ currency = "BTC" then
        { available := .of 250000000 8, reserved := .of 0 8 }
      else if user = "demo-user" ∧ currency = "USDT" then
        { available := .of 1000000 2, reserved := .of 0 2 }
      else {} := by
  unfold balance demoSeed
  by_cases hbtc : (user, currency) = ("demo-user", "BTC")
  · rw [hbtc, lookup_insert]
    obtain ⟨rfl, rfl⟩ := Prod.mk.inj hbtc
    rfl
  · rw [lookup_insert_ne hbtc, if_neg (by simpa using hbtc)]
    by_cases husdt : (user, currency) = ("demo-user", "USDT")
    · rw [husdt, lookup_insert]
      obtain ⟨rfl, rfl⟩ := Prod.mk.inj husdt
      rfl
    · rw [lookup_insert_ne husdt, if_neg (by simpa using husdt)]
      rfl

theorem opening_demoSeed : Opening 8 demoSeed := by
  refine ⟨rfl, ?_⟩
  intro user currency
  rw [balance_demoSeed]
  have hzero : (0 : ℚ) ≤ Decimal.limit 8 := limit_nonneg 8
  split
  · refine ⟨by decide, by decide, by decide +kernel, by decide +kernel, by decide +kernel⟩
  · split
    · refine ⟨by decide, by decide, by decide +kernel, by decide +kernel, by decide +kernel⟩
    · exact ⟨by decide, by decide, by simp, by simpa using hzero, by simp⟩

/-- A reservation of 5050 USDT for the order `o1`. -/
def demoReserve : ReserveFundsRequest where
  reservationId := "o1"
  userId := "demo-user"
  orderId := "o1"
  currency := "USDT"
  amount := Decimal.of 505000 2

/-- A fill of the order `o1`: 0.1 BTC bought at 50000. -/
def demoFill : FlowFill where
  orderId := "o1"
  userId := "demo-user"
  instrument := { symbol := "BTC/USDT", base := "BTC", quote := "USDT" }
  side := .buy
  executedQty := Decimal.of 10000000 8
  price := some (Decimal.of 5000000 2)
  executedNotional := Decimal.of 500000 2

def demoBatch : BatchResult where
  batchId := "b1"
  fills := [demoFill]
  orderUpdates := [{ orderId := "o1", status := .filled }]

def reserveThenFill : List Call :=
  [.reserveFunds demoReserve, .applyBatchResult demoBatch false]

/-- A cancel releases the reservation before the batch that still fills the order. -/
def releaseThenFill : List Call :=
  [.reserveFunds demoReserve, .releaseFunds "o1", .applyBatchResult demoBatch false]

/-- The fill after the release spends what is no longer reserved. -/
theorem fill_after_release_overdraws :
    ReservedOnce [] releaseThenFill ∧
      ¬ Safe (run step LedgerUseCases.demoSeed releaseThenFill)
        (releaseThenFill.map callFees).sum := by
  constructor
  · simp [ReservedOnce, releaseThenFill, demoReserve, demoBatch, demoFill, spent]
  · intro hsafe
    have hnonneg := (hsafe "demo-user" "USDT").2.1
    rw [Decimal.toRat_nonneg_iff] at hnonneg
    revert hnonneg
    decide +kernel

/-- Without the release the run is safe. -/
theorem reserveThenFill_safe :
    Safe (run step LedgerUseCases.demoSeed (reserveThenFill.take 2))
      ((reserveThenFill.take 2).map callFees).sum := by
  refine books_safe_of_calls_ok 8 (by norm_num) opening_demoSeed ?_ 2
  refine ⟨?_, ?_, trivial⟩
  · intro _
    exact ⟨by decide, by decide +kernel⟩
  · intro _
    refine ⟨?_, ?_, ?_⟩
    · intro fill hfill
      obtain rfl := List.mem_singleton.mp hfill
      refine ⟨?_, ?_, ?_⟩
      · intro c amount h
        obtain ⟨rfl, rfl⟩ := Prod.mk.inj (Option.some.inj h)
        exact ⟨by decide, by decide +kernel⟩
      · intro c amount h
        obtain ⟨rfl, rfl⟩ := Prod.mk.inj (Option.some.inj h)
        exact ⟨by decide, by decide +kernel⟩
      · intro c amount h
        cases h
    · intro fill hfill c amount h _
      obtain rfl := List.mem_singleton.mp hfill
      obtain ⟨rfl, rfl⟩ := Prod.mk.inj (Option.some.inj h)
      exact ⟨⟨"demo-user", "o1", "USDT", ⟨505000, 2, by decide⟩⟩,
        by decide +kernel, rfl, rfl, by decide +kernel⟩
    · intro user currency
      have hbalance : (step LedgerUseCases.demoSeed
          (.reserveFunds demoReserve)).balance user currency =
          (LedgerUseCases.demoSeed.modifyBalance "demo-user" "USDT"
            (·.reserve demoReserve.amount)).balance user currency := rfl
      rw [hbalance, LedgerUseCases.balance_modifyBalance]
      have hlimit := Decimal.limit_nonneg 8
      by_cases husdt : user = "demo-user" ∧ currency = "USDT"
      · obtain ⟨rfl, rfl⟩ := husdt
        decide +kernel
      · rw [if_neg husdt, balance_demoSeed]
        by_cases hbtc : user = "demo-user" ∧ currency = "BTC"
        · obtain ⟨rfl, rfl⟩ := hbtc
          decide +kernel
        · rw [if_neg hbtc, if_neg husdt]
          have hreceived : inflow demoFill user currency = 0 := by
            have : ¬ (user = "demo-user" ∧ currency = "BTC") := hbtc
            simp [inflow, amountAt, received, charged, demoFill, this]
          have hcharged : feeOf demoFill user currency = 0 := by
            simp [feeOf, amountAt, charged, demoFill]
          simp [demoBatch, hreceived, hcharged, hlimit]

end Ledger
end ContExchange
