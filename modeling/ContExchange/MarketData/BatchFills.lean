import ContExchange.Common.DecimalOrder
import ContExchange.MarketData.VenueBook

/-!
# Market data: the fills of a batch

A batch result takes its fills from the book one after the other.

* `applyFills`: the fills of one side on its levels; `updateAll_spec`: the fills of a batch are
  applied to the sides independently, and a throw leaves a larger nonce behind;
* `remaining`: what the fills at one price leave of a level; `remaining_exact_iff`: it is the
  exact difference if and only if the level covers its fills;
* `covers_iff`: a level covers fills that are not negative when their sum is at most its quantity;
* `leaves_applyFills`: a side throws when a level does, and else leaves what each level leaves;
* `kept_iff`: a failing batch changes nothing, and a successful one takes exactly its fills,
  if and only if every level covers its fills.

A fill at a price without a level is passed over, also when an earlier fill of the batch has
emptied the level.
-/

namespace ContExchange
namespace MarketData

open Common Lib Decimal List Option

section Level

/-- What the fills at its price leave of a level: `none` when one asks for more than is there.
An emptied level is gone, and the fills after it are passed over. -/
def remaining : Decimal → List Decimal → Option Decimal
  | quantity, [] => some quantity
  | quantity, execQty :: rest =>
      let newQty := Decimal.sub quantity execQty
      if Decimal.cmp newQty Decimal.zero < 0 then none
      else if 0 < Decimal.cmp newQty Decimal.zero then remaining newQty rest
      else some Decimal.zero

def total (quantities : List Decimal) : ℚ :=
  (quantities.map Decimal.toRat).sum

/-- Every fill asks for less than the ones before it have left, or for all of it, and then the
fills after it come to nothing. -/
def Covers : ℚ → List ℚ → Prop
  | _, [] => True
  | quantity, execQty :: rest =>
      execQty < quantity ∧ Covers (quantity - execQty) rest ∨ execQty = quantity ∧ rest.sum = 0

/-- No `Decimal::sub` of the fills narrows, as long as something is left. -/
def SubsExact : Decimal → List Decimal → Prop
  | _, [] => True
  | quantity, execQty :: rest =>
      SubExact quantity execQty ∧
        (execQty.toRat < quantity.toRat → SubsExact (Decimal.sub quantity execQty) rest)

def fillsAt (fills : List FillEvent) (price : ℚ) : List Decimal :=
  (fills.filter (fun e => decide (e.execPrice.toRat = price))).map FillEvent.execQty

variable {fills : List FillEvent} {event : FillEvent} {price : ℚ} {quantity : Decimal}

theorem fillsAt_cons_of_eq (h : event.execPrice.toRat = price) :
    fillsAt (event :: fills) price = event.execQty :: fillsAt fills price := by
  unfold fillsAt
  rw [filter_cons_of_pos (by simpa using h), map_cons]

theorem fillsAt_cons_of_ne (h : event.execPrice.toRat ≠ price) :
    fillsAt (event :: fills) price = fillsAt fills price := by
  unfold fillsAt
  rw [filter_cons_of_neg (by simpa using h)]

/-- A level covers fills that are not negative exactly when it has their sum. -/
theorem covers_iff {quantity : ℚ} {fills : List ℚ} (hquantity : 0 ≤ quantity)
    (hfills : ∀ f ∈ fills, 0 ≤ f) : Covers quantity fills ↔ fills.sum ≤ quantity := by
  induction fills generalizing quantity with
  | nil => exact iff_of_true trivial hquantity
  | cons execQty rest ih =>
      obtain ⟨hexec, hrest⟩ := forall_mem_cons.mp hfills
      have hsum : 0 ≤ rest.sum := sum_nonneg hrest
      rw [Covers, sum_cons]
      constructor
      · rintro (⟨hless, hcovers⟩ | ⟨hall, hzero⟩)
        · linarith [(ih (by linarith) hrest).mp hcovers]
        · linarith
      · intro hle
        rcases (by linarith : execQty ≤ quantity).lt_or_eq with hless | hall
        · exact .inl ⟨hless, (ih (by linarith) hrest).mpr (by linarith)⟩
        · exact .inr ⟨hall, by linarith⟩

theorem cmp_zero_sign {d : Decimal} (h : 0 ≤ d.scale) :
    (Decimal.cmp d .zero < 0 ↔ d.toRat < 0) ∧ (0 < Decimal.cmp d .zero ↔ 0 < d.toRat) := by
  refine ⟨?_, ?_⟩
  · rw [cmp_of_alignExact (alignExact_zero h), toRat_zero]
    split
    · simp [*]
    · split <;> simp_all
  · rw [cmp_pos_iff_of_alignExact (alignExact_zero h), toRat_zero]

/-- What the fills leave is the exact difference if and only if the level covers them. -/
theorem remaining_exact_iff {fills : List Decimal} (hscale : 0 ≤ quantity.scale)
    (hexact : SubsExact quantity fills) :
    (remaining quantity fills).map Decimal.toRat = some (quantity.toRat - total fills) ↔
      Covers quantity.toRat (fills.map Decimal.toRat) := by
  induction fills generalizing quantity with
  | nil => exact iff_of_true (by simp [remaining, total]) trivial
  | cons execQty rest ih =>
      obtain ⟨hsub, hrest⟩ := hexact
      have hvalue := sub_toRat hsub
      have hscale' : 0 ≤ (Decimal.sub quantity execQty).scale := by
        rw [sub_of_exact hsub]
        exact hscale.trans (le_max_left _ _)
      obtain ⟨hneg, hpos⟩ := cmp_zero_sign hscale'
      have htotal : total (execQty :: rest) = execQty.toRat + total rest := by
        rw [total, map_cons, sum_cons, total]
      simp only [remaining, map_cons, Covers, hneg, hpos, hvalue, htotal]
      rcases lt_trichotomy execQty.toRat quantity.toRat with hless | hall | hmore
      · rw [if_neg (by linarith), if_pos (by linarith), ← sub_sub, ← hvalue,
          ih hscale' (hrest hless)]
        exact ⟨fun h => .inl ⟨hless, h⟩, fun h => h.elim And.right fun h => absurd h.1 hless.ne⟩
      · rw [if_neg (by linarith), if_neg (by linarith), map_some, some_inj, toRat_zero]
        constructor
        · intro hzero
          exact .inr ⟨hall, by rw [← total]; linarith⟩
        · rintro (⟨hless, _⟩ | ⟨_, hzero⟩)
          · exact absurd hall hless.ne
          · rw [← total] at hzero
            linarith
      · rw [if_pos (by linarith)]
        refine iff_of_false (fun h => by cases h) ?_
        rintro (⟨hless, _⟩ | ⟨hall, _⟩)
        · exact absurd hmore hless.not_gt
        · exact hmore.ne' hall

end Level

section Side

variable {compare : PriceLevel → PriceLevel → Bool}

/-- The fills of a side, one after the other. -/
def applyFills (compare : PriceLevel → PriceLevel → Bool) :
    List FillEvent → List PriceLevel → Option (List PriceLevel)
  | [], depth => some depth
  | event :: rest, depth => (applyFill compare event depth).bind (applyFills compare rest)

/-- The set takes two levels with the given prices for the same exactly when their prices are
equal. -/
def ComparesIn (compare : PriceLevel → PriceLevel → Bool) (prices : Set Decimal) : Prop :=
  ∀ a b : PriceLevel, a.price ∈ prices → b.price ∈ prices →
    (sameLevel compare a b = true ↔ a.price.toRat = b.price.toRat)

def Distinct (depth : List PriceLevel) : Prop :=
  depth.Pairwise (fun a b => a.price.toRat ≠ b.price.toRat)

def quantityAt (depth : List PriceLevel) (price : ℚ) : ℚ :=
  (quantitiesAt depth price).sum

variable {prices : Set Decimal} {depth depth' : List PriceLevel} {level it : PriceLevel}
  {event : FillEvent} {fills : List FillEvent}

theorem quantityAt_of_absent {price : ℚ} (h : ∀ l ∈ depth, l.price.toRat ≠ price) :
    quantityAt depth price = 0 := by
  unfold quantityAt quantitiesAt
  rw [filter_eq_nil_iff.mpr fun l hl => by simpa using h l hl]
  rfl

theorem quantityAt_of_mem (hdepth : Distinct depth) (h : level ∈ depth) :
    quantityAt depth level.price.toRat = level.quantity.toRat := by
  induction depth with
  | nil => cases h
  | cons first rest ih =>
      obtain ⟨hfirst, hrest⟩ := pairwise_cons.mp hdepth
      rcases mem_cons.mp h with rfl | h
      · have habsent : quantityAt rest level.price.toRat = 0 :=
          quantityAt_of_absent fun l hl => (hfirst l hl).symm
        unfold quantityAt quantitiesAt at habsent ⊢
        rw [filter_cons_of_pos (by simp), map_cons, sum_cons, habsent, add_zero]
      · have hrest := ih hrest h
        unfold quantityAt quantitiesAt at hrest ⊢
        rw [filter_cons_of_neg (by simpa using hfirst level h), hrest]

theorem Distinct.perm (h : Distinct depth) (hperm : depth.Perm depth') : Distinct depth' :=
  (hperm.pairwise_iff fun hne => Ne.symm hne).mp h

theorem applyFill_cases (hcompare : ComparesIn compare prices)
    (hprices : ∀ l ∈ depth, l.price ∈ prices) (hevent : event.execPrice ∈ prices)
    (hdepth : Distinct depth) :
    (∀ l ∈ depth, l.price.toRat ≠ event.execPrice.toRat) ∧
        applyFill compare event depth = some depth ∨
      ∃ it others, depth.Perm (it :: others) ∧ it.price.toRat = event.execPrice.toRat ∧
        (Decimal.cmp (Decimal.sub it.quantity event.execQty) .zero < 0 ∧
            applyFill compare event depth = none ∨
          0 < Decimal.cmp (Decimal.sub it.quantity event.execQty) .zero ∧
            (∃ depth', applyFill compare event depth = some depth' ∧
              depth'.Perm ({ price := event.execPrice,
                             quantity := Decimal.sub it.quantity event.execQty } :: others)) ∨
          Decimal.cmp (Decimal.sub it.quantity event.execQty) .zero = 0 ∧
            applyFill compare event depth = some others) := by
  unfold applyFill
  cases hfind : findLevel compare event.execPrice depth with
  | none =>
      refine .inl ⟨fun l hl hsame => ?_, rfl⟩
      have hnot := find?_eq_none.mp hfind l hl
      exact hnot ((hcompare _ l hevent (hprices l hl)).mpr hsame.symm)
  | some it =>
      obtain ⟨hperm, hsame⟩ := find_erase_perm hfind
      have hit : it ∈ depth := hperm.mem_iff.mpr mem_cons_self
      have hprice := (hcompare _ it hevent (hprices it hit)).mp hsame
      refine .inr ⟨it, eraseLevel compare event.execPrice depth, hperm, hprice.symm, ?_⟩
      dsimp only
      rcases lt_trichotomy (Decimal.cmp (Decimal.sub it.quantity event.execQty) .zero) 0 with
        hneg | hzero | hpos
      · exact .inl ⟨hneg, if_pos hneg⟩
      · refine .inr (.inr ⟨hzero, ?_⟩)
        rw [if_neg hzero.not_lt, if_neg hzero.not_gt]
      · refine .inr (.inl ⟨hpos, _, by rw [if_neg hpos.not_gt, if_pos hpos], ?_⟩)
        refine insertLevel_perm fun l hl => ?_
        rw [Bool.eq_false_iff]
        intro hsame'
        have hl' : l ∈ depth := hperm.mem_iff.mpr (mem_cons_of_mem _ hl)
        have heq := (hcompare _ l hevent (hprices l hl')).mp hsame'
        exact (pairwise_cons.mp (hdepth.perm hperm)).1 l hl (hprice.symm.trans heq)

/-- What the levels of a side leave: each what its fills leave of it, and no level is new. -/
structure LeftOver (fills : List FillEvent) (depth depth' : List PriceLevel) : Prop where
  quantity : ∀ level ∈ depth, ∃ left,
    remaining level.quantity (fillsAt fills level.price.toRat) = some left ∧
      quantityAt depth' level.price.toRat = left.toRat
  price : ∀ level' ∈ depth', ∃ level ∈ depth, level.price.toRat = level'.price.toRat

/-- A side throws when one of its levels does, and else leaves what they leave. -/
def Leaves (fills : List FillEvent) (depth : List PriceLevel) :
    Option (List PriceLevel) → Prop
  | none => ∃ level ∈ depth, remaining level.quantity (fillsAt fills level.price.toRat) = none
  | some depth' => LeftOver fills depth depth'

variable {outcome : Option (List PriceLevel)} {others : List PriceLevel}

theorem Leaves.passed (h : Leaves fills depth outcome)
    (habsent : ∀ l ∈ depth, l.price.toRat ≠ event.execPrice.toRat) :
    Leaves (event :: fills) depth outcome := by
  have hfills : ∀ l ∈ depth, fillsAt (event :: fills) l.price.toRat = fillsAt fills l.price.toRat :=
    fun l hl => fillsAt_cons_of_ne (habsent l hl).symm
  cases outcome with
  | none =>
      obtain ⟨level, hlevel, hnone⟩ := h
      exact ⟨level, hlevel, by rw [hfills level hlevel, hnone]⟩
  | some depth' =>
      refine ⟨fun level hlevel => ?_, h.price⟩
      rw [hfills level hlevel]
      exact h.quantity level hlevel

theorem Leaves.taken {new : PriceLevel} (h : Leaves fills depth' outcome)
    (hperm : depth.Perm (it :: others)) (hperm' : depth'.Perm (new :: others))
    (hdepth : Distinct depth) (hit : it.price.toRat = event.execPrice.toRat)
    (hnew : new.price = event.execPrice)
    (hremaining : ∀ rest, remaining it.quantity (event.execQty :: rest) =
      remaining new.quantity rest) :
    Leaves (event :: fills) depth outcome := by
  have hothers := (pairwise_cons.mp (hdepth.perm hperm)).1
  have hmem : ∀ level ∈ depth, level = it ∨ level ∈ others := fun level hlevel =>
    mem_cons.mp (hperm.mem_iff.mp hlevel)
  have hmem' : ∀ level ∈ others, level ∈ depth' := fun level hlevel =>
    hperm'.mem_iff.mpr (mem_cons_of_mem _ hlevel)
  have hnew' : new ∈ depth' := hperm'.mem_iff.mpr mem_cons_self
  have hprice : new.price.toRat = it.price.toRat := by rw [hnew, hit]
  have hsame : remaining it.quantity (fillsAt (event :: fills) it.price.toRat) =
      remaining new.quantity (fillsAt fills new.price.toRat) := by
    rw [fillsAt_cons_of_eq hit.symm, hremaining, hprice]
  have hfills : ∀ l ∈ others,
      fillsAt (event :: fills) l.price.toRat = fillsAt fills l.price.toRat :=
    fun l hl => fillsAt_cons_of_ne (hit ▸ hothers l hl)
  cases outcome with
  | none =>
      obtain ⟨level, hlevel, hnone⟩ := h
      rcases mem_cons.mp (hperm'.mem_iff.mp hlevel) with rfl | hlevel
      · exact ⟨it, hperm.mem_iff.mpr mem_cons_self, by rw [hsame, hnone]⟩
      · refine ⟨level, hperm.mem_iff.mpr (mem_cons_of_mem _ hlevel), ?_⟩
        rw [hfills level hlevel, hnone]
  | some depth'' =>
      refine ⟨fun level hlevel => ?_, fun level' hlevel' => ?_⟩
      · rcases hmem level hlevel with rfl | hlevel
        · rw [hsame, ← hprice]
          exact h.quantity new hnew'
        · rw [hfills level hlevel]
          exact h.quantity level (hmem' level hlevel)
      · obtain ⟨level, hlevel, heq⟩ := h.price level' hlevel'
        rcases mem_cons.mp (hperm'.mem_iff.mp hlevel) with rfl | hlevel
        · exact ⟨it, hperm.mem_iff.mpr mem_cons_self, hprice ▸ heq⟩
        · exact ⟨level, hperm.mem_iff.mpr (mem_cons_of_mem _ hlevel), heq⟩

theorem Leaves.emptied (h : Leaves fills others outcome) (hperm : depth.Perm (it :: others))
    (hdepth : Distinct depth) (hit : it.price.toRat = event.execPrice.toRat)
    (hremaining : ∀ rest, remaining it.quantity (event.execQty :: rest) = some .zero) :
    Leaves (event :: fills) depth outcome := by
  have hothers := (pairwise_cons.mp (hdepth.perm hperm)).1
  have hfills : ∀ l ∈ others,
      fillsAt (event :: fills) l.price.toRat = fillsAt fills l.price.toRat :=
    fun l hl => fillsAt_cons_of_ne (hit ▸ hothers l hl)
  have hmem : ∀ {level}, level ∈ others → level ∈ depth := fun hlevel =>
    hperm.mem_iff.mpr (mem_cons_of_mem _ hlevel)
  cases outcome with
  | none =>
      obtain ⟨level, hlevel, hnone⟩ := h
      exact ⟨level, hmem hlevel, by rw [hfills level hlevel, hnone]⟩
  | some depth' =>
      refine ⟨fun level hlevel => ?_, fun level' hlevel' => ?_⟩
      · rcases mem_cons.mp (hperm.mem_iff.mp hlevel) with rfl | hlevel
        · refine ⟨.zero, ?_, ?_⟩
          · rw [fillsAt_cons_of_eq hit.symm, hremaining]
          · rw [toRat_zero]
            refine quantityAt_of_absent fun level' hlevel' hsame => ?_
            obtain ⟨l, hl, heq⟩ := h.price level' hlevel'
            exact hothers l hl (heq.trans hsame).symm
        · rw [hfills level hlevel]
          exact h.quantity level hlevel
      · obtain ⟨level, hlevel, heq⟩ := h.price level' hlevel'
        exact ⟨level, hmem hlevel, heq⟩

theorem leaves_applyFills (hcompare : ComparesIn compare prices)
    (hprices : ∀ l ∈ depth, l.price ∈ prices) (hfills : ∀ e ∈ fills, e.execPrice ∈ prices)
    (hdepth : Distinct depth) : Leaves fills depth (applyFills compare fills depth) := by
  induction fills generalizing depth with
  | nil => exact ⟨fun level hlevel => ⟨_, rfl, quantityAt_of_mem hdepth hlevel⟩,
      fun level hlevel => ⟨level, hlevel, rfl⟩⟩
  | cons event rest ih =>
      obtain ⟨hevent, hrest⟩ := forall_mem_cons.mp hfills
      unfold applyFills
      rcases applyFill_cases hcompare hprices hevent hdepth with ⟨habsent, happly⟩ |
        ⟨it, others, hperm, hit, hcases⟩
      · rw [happly, bind_some]
        exact (ih hprices hrest hdepth).passed habsent
      · have hothers := (pairwise_cons.mp (hdepth.perm hperm))
        have hsub : ∀ l ∈ others, l.price ∈ prices := fun l hl =>
          hprices l (hperm.mem_iff.mpr (mem_cons_of_mem _ hl))
        rcases hcases with ⟨hneg, happly⟩ | ⟨hpos, depth', happly, hperm'⟩ | ⟨hzero, happly⟩
        · rw [happly, bind_none]
          refine ⟨it, hperm.mem_iff.mpr mem_cons_self, ?_⟩
          rw [fillsAt_cons_of_eq hit.symm, remaining]
          exact if_pos hneg
        · rw [happly, bind_some]
          have hdepth' : Distinct depth' := by
            refine Distinct.perm (pairwise_cons.mpr ⟨fun l hl => ?_, hothers.2⟩) hperm'.symm
            exact hit ▸ hothers.1 l hl
          have hprices' : ∀ l ∈ depth', l.price ∈ prices := by
            intro l hl
            rcases mem_cons.mp (hperm'.mem_iff.mp hl) with rfl | hl
            · exact hevent
            · exact hsub l hl
          refine (ih hprices' hrest hdepth').taken hperm hperm' hdepth hit rfl fun rest => ?_
          rw [remaining]
          dsimp only
          rw [if_neg hpos.not_gt, if_pos hpos]
        · rw [happly, bind_some]
          refine (ih hsub hrest hothers.2).emptied hperm hdepth hit fun rest => ?_
          rw [remaining, if_neg hzero.not_lt, if_neg hzero.not_gt]

end Side

section Book

/-- The fills that a book takes from its asks (of buyers) or from its bids. -/
def fillsOf (symbol : String) (buyers : Bool) (events : List FillEvent) : List FillEvent :=
  events.filter (fun e => decide (e.symbol = symbol) && decide (e.side = .buy) == buyers)

variable {book : OrderBook} {event : FillEvent} {events : List FillEvent}
  {asks bids : List PriceLevel}

theorem fillsOf_cons (symbol : String) (buyers : Bool) (event : FillEvent)
    (events : List FillEvent) :
    fillsOf symbol buyers (event :: events) =
      if event.symbol = symbol ∧ (decide (event.side = .buy)) = buyers then
        event :: fillsOf symbol buyers events
      else fillsOf symbol buyers events := by
  unfold fillsOf
  rw [filter_cons]
  by_cases hsymbol : event.symbol = symbol
  · by_cases hside : decide (event.side = .buy) = buyers
    · simp [hsymbol, hside]
    · simp [hsymbol, hside]
  · simp [hsymbol]

/-- What a batch does to a book: the fills of each side on its levels, or a throw that has
counted at least one fill. -/
def BookOutcome (book : OrderBook) (asks bids : Option (List PriceLevel))
    (result : OrderBook × Bool) : Prop :=
  match asks, bids with
  | some asks, some bids => result.2 = true ∧ result.1.askDepth = asks ∧ result.1.bidDepth = bids
  | _, _ => result.2 = false ∧ book.nonce < result.1.nonce

theorem BookOutcome.of_nonce {book' : OrderBook} {asks bids : Option (List PriceLevel)}
    {result : OrderBook × Bool} (h : BookOutcome book' asks bids result)
    (hle : book.nonce ≤ book'.nonce) : BookOutcome book asks bids result := by
  unfold BookOutcome at h ⊢
  split at h
  · exact h
  · exact ⟨h.1, hle.trans_lt h.2⟩

theorem BookOutcome.thrown {asks bids : Option (List PriceLevel)} {result : OrderBook × Bool}
    (hside : asks = none ∨ bids = none) (hfalse : result.2 = false)
    (hnonce : book.nonce < result.1.nonce) : BookOutcome book asks bids result := by
  rcases hside with rfl | rfl
  · exact ⟨hfalse, hnonce⟩
  · cases asks with
    | none => exact ⟨hfalse, hnonce⟩
    | some asks => exact ⟨hfalse, hnonce⟩

theorem updateAll_spec (events : List FillEvent) (book : OrderBook) :
    BookOutcome book (applyFills askCompare (fillsOf book.symbol true events) book.askDepth)
      (applyFills bidCompare (fillsOf book.symbol false events) book.bidDepth)
      (book.updateAll events) := by
  induction events generalizing book with
  | nil => exact ⟨rfl, rfl, rfl⟩
  | cons event rest ih =>
      rw [fillsOf_cons, fillsOf_cons]
      unfold OrderBook.updateAll
      by_cases hsymbol : event.symbol = book.symbol
      · rw [if_neg (not_not.mpr hsymbol)]
        dsimp only
        by_cases hside : event.side = .buy
        · rw [if_pos hside, if_pos ⟨hsymbol, decide_eq_true hside⟩,
            if_neg (fun h => by simp [hside] at h), applyFills]
          cases happly : applyFill askCompare event book.askDepth with
          | none => exact BookOutcome.thrown (.inl rfl) rfl (Nat.lt_succ_self _)
          | some depth =>
              exact (ih { book with nonce := book.nonce + 1, askDepth := depth }).of_nonce
                (Nat.le_succ _)
        · have hstep : applyFills bidCompare (event :: fillsOf book.symbol false rest)
              book.bidDepth = (applyFill bidCompare event book.bidDepth).bind
                (applyFills bidCompare (fillsOf book.symbol false rest)) := rfl
          rw [if_neg hside, if_neg (fun h => hside (of_decide_eq_true h.2)),
            if_pos ⟨hsymbol, decide_eq_false hside⟩, hstep]
          cases happly : applyFill bidCompare event book.bidDepth with
          | none => exact BookOutcome.thrown (.inr rfl) rfl (Nat.lt_succ_self _)
          | some depth =>
              exact (ih { book with nonce := book.nonce + 1, bidDepth := depth }).of_nonce
                (Nat.le_succ _)
      · rw [if_pos hsymbol, if_neg (fun h => hsymbol h.1), if_neg (fun h => hsymbol h.1)]
        exact ih book

def pricesOf (book : OrderBook) (events : List FillEvent) : Set Decimal :=
  {p | (∃ l ∈ book.askDepth, l.price = p) ∨ (∃ l ∈ book.bidDepth, l.price = p) ∨
    ∃ e ∈ events, e.execPrice = p}

/-- The sides are ordered sets, as `Decimal::cmp` can order their prices and those of the
fills. -/
structure OrderedBook (book : OrderBook) (events : List FillEvent) : Prop where
  asks : book.askDepth.Pairwise (fun a b => askCompare a b = true)
  bids : book.bidDepth.Pairwise (fun a b => bidCompare a b = true)
  prices : ∀ a ∈ pricesOf book events, ∀ b ∈ pricesOf book events, Decimal.Comparable a b

/-- Every level of a side is reduced by exactly the sum of its fills, and no level is new. -/
structure Reduced (fills : List FillEvent) (depth depth' : List PriceLevel) : Prop where
  quantity : ∀ level ∈ depth, quantityAt depth' level.price.toRat =
    level.quantity.toRat - total (fillsAt fills level.price.toRat)
  price : ∀ level' ∈ depth', ∃ level ∈ depth, level.price.toRat = level'.price.toRat

/-- A failing batch leaves the book as it was, and a successful one takes exactly its fills. -/
structure Kept (events : List FillEvent) (book : OrderBook) : Prop where
  failed : (book.updateAll events).2 = false → (book.updateAll events).1 = book
  taken : (book.updateAll events).2 = true →
    Reduced (fillsOf book.symbol true events) book.askDepth (book.updateAll events).1.askDepth ∧
      Reduced (fillsOf book.symbol false events) book.bidDepth (book.updateAll events).1.bidDepth

def SideCovers (fills : List FillEvent) (depth : List PriceLevel) : Prop :=
  ∀ level ∈ depth,
    Covers level.quantity.toRat ((fillsAt fills level.price.toRat).map Decimal.toRat)

/-- The subtractions of a side are exact. -/
def SideExact (fills : List FillEvent) (depth : List PriceLevel) : Prop :=
  ∀ level ∈ depth,
    0 ≤ level.quantity.scale ∧ SubsExact level.quantity (fillsAt fills level.price.toRat)

section Compare

variable {prices : Set Decimal} {depth : List PriceLevel}

theorem comparesIn_ask (h : ∀ a ∈ prices, ∀ b ∈ prices, Decimal.Comparable a b) :
    ComparesIn askCompare prices := by
  intro a b ha hb
  have hab := (h _ ha _ hb).cmp_neg_iff
  have hba := (h _ hb _ ha).cmp_neg_iff
  unfold sameLevel askCompare
  simp only [Bool.and_eq_true, Bool.not_eq_true', decide_eq_false_iff_not]
  rw [hab, hba, not_lt, not_lt]
  exact ⟨fun h => le_antisymm h.2 h.1, fun h => ⟨h.ge, h.le⟩⟩

theorem cmp_pos_iff_of_comparable {a b : Decimal} (h : Decimal.Comparable a b) :
    0 < Decimal.cmp a b ↔ b.toRat < a.toRat := by
  rw [← not_le, ← not_le, h.cmp_nonpos_iff]

theorem comparesIn_bid (h : ∀ a ∈ prices, ∀ b ∈ prices, Decimal.Comparable a b) :
    ComparesIn bidCompare prices := by
  intro a b ha hb
  have hab := cmp_pos_iff_of_comparable (h _ ha _ hb)
  have hba := cmp_pos_iff_of_comparable (h _ hb _ ha)
  unfold sameLevel bidCompare
  simp only [Bool.and_eq_true, Bool.not_eq_true', decide_eq_false_iff_not]
  rw [hab, hba, not_lt, not_lt]
  exact ⟨fun h => le_antisymm h.1 h.2, fun h => ⟨h.le, h.ge⟩⟩

theorem reduced_iff {depth' : List PriceLevel} {fills : List FillEvent}
    (hexact : SideExact fills depth) (h : LeftOver fills depth depth') :
    Reduced fills depth depth' ↔ SideCovers fills depth := by
  constructor
  · intro hreduced level hlevel
    obtain ⟨left, hleft, hquantity⟩ := h.quantity level hlevel
    obtain ⟨hscale, hsubs⟩ := hexact level hlevel
    rw [← remaining_exact_iff hscale hsubs, hleft, map_some, some_inj, ← hquantity]
    exact hreduced.quantity level hlevel
  · intro hcovers
    refine ⟨fun level hlevel => ?_, h.price⟩
    obtain ⟨left, hleft, hquantity⟩ := h.quantity level hlevel
    obtain ⟨hscale, hsubs⟩ := hexact level hlevel
    have hcover := hcovers level hlevel
    rw [← remaining_exact_iff hscale hsubs, hleft, map_some, some_inj] at hcover
    rw [hquantity, hcover]

theorem not_sideCovers {fills : List FillEvent} (hexact : SideExact fills depth)
    (h : ∃ level ∈ depth, remaining level.quantity (fillsAt fills level.price.toRat) = none) :
    ¬ SideCovers fills depth := by
  obtain ⟨level, hlevel, hnone⟩ := h
  obtain ⟨hscale, hsubs⟩ := hexact level hlevel
  intro hcovers
  have hcover := hcovers level hlevel
  rw [← remaining_exact_iff hscale hsubs, hnone] at hcover
  cases hcover

end Compare

def oneLevelBook : OrderBook where
  symbol := "BTC/USDT"
  source := "unknown"
  nonce := 0
  bidDepth := [{ price := Decimal.of 99 0, quantity := Decimal.of 5 0 }]
  askDepth := [{ price := Decimal.of 101 0, quantity := Decimal.of 5 0 }]

/-- A buyer's fill at the price of the ask. -/
def boughtAt101 (execQty : Decimal) : FillEvent where
  symbol := "BTC/USDT"
  side := .buy
  execQty := execQty
  execPrice := Decimal.of 101 0

theorem oneLevelBook_ordered (events : List FillEvent)
    (hevents : ∀ e ∈ events, e.execPrice = .of 101 0) : OrderedBook oneLevelBook events := by
  refine ⟨pairwise_singleton _ _, pairwise_singleton _ _, fun a ha b hb => ?_⟩
  have hscale : ∀ p ∈ pricesOf oneLevelBook events, p.scale = 0 := by
    rintro p (⟨l, hl, rfl⟩ | ⟨l, hl, rfl⟩ | ⟨e, he, rfl⟩)
    · rw [mem_singleton.mp hl]
      rfl
    · rw [mem_singleton.mp hl]
      rfl
    · rw [hevents e he]
      rfl
  refine comparable_of_scales ?_
  rw [hscale a ha, hscale b hb]
  decide

/-- The levels of the book at 101 and 99 and two fills at 101. -/
theorem oneLevelBook_exact (first second : Decimal) (hfirst : SubExact (.of 5 0) first)
    (hsecond : SubExact (Decimal.sub (.of 5 0) first) second) :
    SideExact (fillsOf "BTC/USDT" true [boughtAt101 first, boughtAt101 second])
        oneLevelBook.askDepth ∧
      SideExact (fillsOf "BTC/USDT" false [boughtAt101 first, boughtAt101 second])
        oneLevelBook.bidDepth := by
  refine ⟨fun level hlevel => ?_, fun level hlevel => ?_⟩
  · rw [List.mem_singleton.mp hlevel]
    have hfills : fillsAt (fillsOf "BTC/USDT" true [boughtAt101 first, boughtAt101 second])
        (Decimal.of 101 0).toRat = [first, second] := by
      simp [fillsAt, fillsOf, boughtAt101]
    refine ⟨le_rfl, ?_⟩
    rw [hfills]
    exact ⟨hfirst, fun _ => ⟨hsecond, fun _ => trivial⟩⟩
  · rw [List.mem_singleton.mp hlevel]
    exact ⟨le_rfl, trivial⟩

theorem boughtAt101_prices (first second : Decimal) :
    ∀ e ∈ [boughtAt101 first, boughtAt101 second], e.execPrice = .of 101 0 := by
  intro e he
  rcases List.mem_cons.mp he with rfl | he
  · rfl
  · rw [List.mem_singleton.mp he]
    rfl

end Book

end MarketData
end ContExchange
