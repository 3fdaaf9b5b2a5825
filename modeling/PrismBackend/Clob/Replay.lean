import PrismBackend.Lib.Entries
import PrismBackend.Clob.Priority
import PrismBackend.Clob.Service

/-!
# CLOB: reading messages

A process that starts anew and reads order messages, each at its time. Its book
ranks orders of one limit as it has read them.
-/

namespace PrismBackend.Clob

open PrismBackend.Lib

abbrev Reading := CreateOrderRequestClob × Nat

def readInto (book : Book) (readings : List Reading) : Book :=
  readings.foldl (fun book m => (book.add m.1 m.2).book) book

def Reading.live (m : Reading) : Bool := !expired m.1 m.2

section Book

variable {book : Book} {readings : List Reading} {o o' : CreateOrderRequestClob} {now : Nat}

theorem readInto_live (book : Book) (readings : List Reading) :
    readInto book readings = readInto book (readings.filter Reading.live) := by
  induction readings generalizing book with
  | nil => rfl
  | cons m readings ih =>
      cases hlive : Reading.live m with
      | true =>
          rw [List.filter_cons_of_pos hlive]
          exact ih _
      | false =>
          have hexpired : expired m.1 m.2 = true := by simpa [Reading.live] using hlive
          have hadd : (book.add m.1 m.2).book = book := by
            rw [Book.add, if_pos (Or.inl hexpired)]
          rw [List.filter_cons_of_neg (by simp [hlive]), ← ih]
          show readInto (book.add m.1 m.2).book readings = _
          rw [hadd]

def Reading.op (m : Reading) : BookOp := .add m.1 m.2

theorem readInto_eq (readings : List Reading) :
    readInto ⟨[], []⟩ readings = (runBook (readings.map Reading.op)).book := by
  have hfrom (h : History) :
      readInto h.book readings = ((readings.map Reading.op).foldl History.step h).book := by
    induction readings generalizing h with
    | nil => rfl
    | cons m readings ih => exact ih (h.step m.op)
  exact hfrom History.empty

/-- Two orders were read, one after the other, and neither was dropped. -/
def ReadBefore (readings : List Reading) (o o' : CreateOrderRequestClob) : Prop :=
  ∃ m m', [m, m'].Sublist (readings.filter Reading.live) ∧ Later m.1 o ∧ Later m'.1 o'

/-- On one side, orders of one limit stand as they were read. -/
theorem ranked_as_read (readings : List Reading) {side : List CreateOrderRequestClob}
    (hside : side = (readInto ⟨[], []⟩ readings).bids ∨ side = (readInto ⟨[], []⟩ readings).asks) :
    side.Pairwise fun o o' => isBid o = isBid o' ∧
      (o.limitYesPrice = o'.limitYesPrice → ReadBefore readings o o') := by
  rw [readInto_live, readInto_eq, ← arrivedRun_erase] at hside
  have hplaced := arrivedRun_placed ((readings.filter Reading.live).map Reading.op)
  have hranked (incomingIsBid : Bool) :
      (((arrivedRun ((readings.filter Reading.live).map Reading.op)).opposite
        incomingIsBid).map (·.order)).Pairwise fun o o' => isBid o = isBid o' ∧
          (o.limitYesPrice = o'.limitYesPrice → ReadBefore readings o o') := by
    apply List.pairwise_map.mpr
    apply (hplaced.inArrival incomingIsBid).imp_of_mem
    intro r r' hr hr' hbefore
    have hdirection := hplaced.direction incomingIsBid
    refine ⟨(hdirection r hr).trans (hdirection r' hr').symm, ?_⟩
    intro hlimit
    obtain ⟨o, now, hop, hlater⟩ := hplaced.came incomingIsBid r hr
    obtain ⟨o', now', hop', hlater'⟩ := hplaced.came incomingIsBid r' hr'
    rw [List.getElem?_map, Option.map_eq_some_iff] at hop hop'
    obtain ⟨m, hm, hmop⟩ := hop
    obtain ⟨m', hm', hmop'⟩ := hop'
    cases hmop
    cases hmop'
    exact ⟨m, m', sublist_of_lt (hbefore hlimit) hm hm', hlater, hlater'⟩
  rcases hside with rfl | rfl
  · exact hranked false
  · exact hranked true

/-- An order that comes into a book with nothing to match rests behind the others of its side. -/
theorem add_unopposed (side : List CreateOrderRequestClob) (hlive : expired o now = false)
    (hopen : 0 < remainingShares o) :
    ((if isBid o then ⟨side, []⟩ else ⟨[], side⟩ : Book).add o now).book =
      if isBid o then ⟨side ++ [o], []⟩ else ⟨[], side ++ [o]⟩ := by
  have hrest : restRemainder side o = side ++ [o] := if_neg hopen.ne'
  unfold Book.add
  rw [if_neg (by simp [hlive, hopen.ne'])]
  split
  · show Book.mk (restRemainder side o) [] = _
    rw [hrest]
  · show Book.mk [] (restRemainder side o) = _
    rw [hrest]

/-- Two orders of one side that are read first stand one behind the other. -/
theorem readInto_two (hlive : expired o now = false) (hlive' : expired o' now = false)
    (hopen : 0 < remainingShares o) (hopen' : 0 < remainingShares o') (hside : isBid o = isBid o') :
    readInto ⟨[], []⟩ [(o, now), (o', now)] =
      if isBid o then ⟨[o, o'], []⟩ else ⟨[], [o, o']⟩ := by
  have hfirst := add_unopposed [] hlive hopen
  have hsecond := add_unopposed [o] hlive' hopen'
  rw [← hside] at hsecond
  have hempty : (if isBid o then ⟨[], []⟩ else ⟨[], []⟩ : Book) = ⟨[], []⟩ := ite_self _
  rw [hempty] at hfirst
  show ((Book.add ⟨[], []⟩ o now).book.add o' now).book = _
  rw [hfirst]
  exact hsecond

end Book

/-! ## A process that starts anew -/

def startAnew (marketId : Str) (readings : List Reading) : Process :=
  runProcess (.createMarket marketId :: readings.map fun m => .deliverOrder m.1 m.2)

section Service

variable {marketId : Str} {readings : List Reading}

/-- Orders of one market that were not placed before go into its book, one after the other. -/
theorem deliver_readInto {r : Process} {book : Book} (hbook : r.service.bookOf marketId = some book)
    (hmarket : ∀ m ∈ readings, m.1.marketId = marketId)
    (hdistinct : (readings.map fun m => m.1.txId).Nodup)
    (hnew : ∀ m ∈ readings, m.1.txId ∉ r.service.txIdLut) :
    (((readings.map fun m => ClobRequest.deliverOrder m.1 m.2).foldl
      Process.step r).service.bookOf marketId) = some (readInto book readings) := by
  induction readings generalizing r book with
  | nil => exact hbook
  | cons m readings ih =>
      obtain ⟨hfirst, hrest⟩ := List.nodup_cons.mp hdistinct
      have hunseen : r.service.orderExists m.1.txId = false := by
        have hm := hnew m List.mem_cons_self
        simpa [OrderBookService.orderExists] using hm
      have hplace : r.service.placeOrder m.1 m.2 =
          ({ r.service.setBook marketId (some (book.add m.1 m.2).book) with
            txIdLut := m.1.txId :: r.service.txIdLut }, (book.add m.1 m.2).matches_) := by
        rw [OrderBookService.placeOrder, hmarket m List.mem_cons_self, hbook]
      have hstep : (r.step (.deliverOrder m.1 m.2)).service =
          { r.service.setBook marketId (some (book.add m.1 m.2).book) with
            txIdLut := m.1.txId :: r.service.txIdLut } := by
        show (if r.service.orderExists m.1.txId then (r.service, [])
          else r.service.placeOrder m.1 m.2).1 = _
        rw [hunseen, hplace]
        rfl
      apply ih
      · rw [hstep]
        exact Function.update_self ..
      · exact fun m' hm' => hmarket m' (List.mem_cons_of_mem m hm')
      · exact hrest
      · intro m' hm'
        rw [hstep]
        apply List.not_mem_cons_of_ne_of_not_mem
        · intro heq
          exact hfirst (List.mem_map.mpr ⟨m', hm', heq⟩)
        · exact hnew m' (List.mem_cons_of_mem m hm')

theorem startAnew_book (hmarket : ∀ m ∈ readings, m.1.marketId = marketId)
    (hdistinct : (readings.map fun m => m.1.txId).Nodup) :
    (startAnew marketId readings).service.bookOf marketId = some (readInto ⟨[], []⟩ readings) := by
  have hcreated : ((Process.mk .new []).step (.createMarket marketId)).service.bookOf marketId =
      some ⟨[], []⟩ := Function.update_self ..
  exact deliver_readInto hcreated hmarket hdistinct fun _ _ => List.not_mem_nil

end Service

end PrismBackend.Clob
