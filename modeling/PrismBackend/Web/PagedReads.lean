import PrismBackend.Api.Pagination

/-!
# Reading a list page by page

`fetchAllPaged.ts`, over the list endpoints of the API. An endpoint that skips
rows while it builds a page reports the rows it shows as the rows it read, so
the next page starts inside the page before.
-/

namespace PrismBackend.Web

open PrismBackend.Api

def PAGE_LIMIT : Nat := 100

structure PagedPage (Item : Type) where
  rows : List Item
  pagination : Option PaginationRes

structure FetchAllPagedResult (Item : Type) where
  rows : List Item
  total : Nat
  truncated : Bool
  deriving DecidableEq, Repr

section Client

variable {Item : Type}

/-- The page size to go on with, learned from the first response. -/
def learnLimit (page : PagedPage Item) (effectiveLimit : Nat) : Nat :=
  if effectiveLimit = 0 then
    match page.pagination with
    | some pagination => if 0 < pagination.limit then pagination.limit.toNat else page.rows.length
    | none => page.rows.length
  else effectiveLimit

def morePages (page : PagedPage Item) (effectiveLimit : Nat) : Bool :=
  match page.pagination with
  | some pagination => pagination.hasMore
  | none => decide (0 < effectiveLimit ∧ effectiveLimit ≤ page.rows.length)

def nextOffset (page : PagedPage Item) (effectiveLimit offset : Nat) : Nat :=
  let guess := offset + if effectiveLimit = 0 then page.rows.length else effectiveLimit
  match page.pagination with
  | some pagination =>
    if pagination.nextOffset ≠ 0 ∧ (offset : Int) < pagination.nextOffset then
      pagination.nextOffset.toNat
    else guess
  | none => guess

/-- The loop of `fetchAllPaged`, with the pages that it may still fetch. -/
def fetchPages (fetchPage : Nat → Nat → Option (PagedPage Item)) :
    (pages offset total effectiveLimit : Nat) → (rows : List Item) → (truncated : Bool) →
      Option (FetchAllPagedResult Item)
  | 0, _, total, _, rows, truncated =>
    some { rows, total := if total = 0 then rows.length else total, truncated }
  | pages + 1, offset, total, effectiveLimit, rows, truncated => do
    let page ← fetchPage PAGE_LIMIT offset
    let rows := rows ++ page.rows
    let total := match page.pagination with
      | some pagination => if 0 < pagination.total then pagination.total else total
      | none => total
    let effectiveLimit := learnLimit page effectiveLimit
    if morePages page effectiveLimit then
      fetchPages fetchPage pages (nextOffset page effectiveLimit offset) total effectiveLimit rows
        (truncated || pages == 0)
    else some { rows, total := if total = 0 then rows.length else total, truncated }

def maxPagesOf (maxPages : Option Int) : Nat := (max 1 (maxPages.getD 8)).toNat

def fetchAllPaged (fetchPage : Nat → Nat → Option (PagedPage Item)) (maxPages : Option Int) :
    Option (FetchAllPagedResult Item) :=
  fetchPages fetchPage (maxPagesOf maxPages) 0 0 0 [] false

/-- One call of an endpoint, whose request the client's library writes; it throws where it cannot
write a number into an `int32` field. -/
def callPage (int32 : Nat → Option Int) (endpoint : Int → Int → Option (List Item × PaginationRes))
    (limit offset : Nat) : Option (PagedPage Item) := do
  let limit ← int32 limit
  let offset ← int32 offset
  let (items, pagination) ← endpoint limit offset
  some ⟨items, some pagination⟩

/-- The library writes what fits in 32 bits, and asserts that it does. -/
def AssertsInt32 (int32 : Nat → Option Int) : Prop :=
  ∀ n : Nat, int32 n = if n < 2 ^ 31 then some (n : Int) else none

end Client

/-! ## What a walk returns -/

/-- The walk returns the items that are expected: all of them, or a prefix when it is truncated. -/
def Covers {Item : Type} (result : Option (FetchAllPagedResult Item)) (items : List Item) : Prop :=
  ∃ r, result = some r ∧ (r.truncated = false → r.rows = items) ∧
    (r.truncated = true → r.rows <+: items)

section Pages

variable {Row : Type}

/-- The rows of a page that are shown come before those that are skipped. -/
def ShownFirst (shown : Row → Bool) (page : List Row) : Prop :=
  page.Pairwise fun a b => shown b = true → shown a = true

/-- How far the next page is behind the start of this one: as many rows as this one shows, or a
whole page when it shows none. -/
def pageStep (shown : Row → Bool) (limit : Nat) (rows : List Row) : Nat :=
  if (rows.take limit).countP shown = 0 then limit else (rows.take limit).countP shown

/-- Cut into pages, every page that another one follows shows its rows first, and no page starts
beyond what a request can ask for. -/
def Walkable (shown : Row → Bool) (limit : Nat) : (pages offset : Nat) → List Row → Prop
  | 0, _, _ => True
  | pages + 1, offset, rows => offset < 2 ^ 31 ∧
    (pages ≠ 0 → (rows.take limit).countP shown < rows.length →
      ShownFirst shown (rows.take limit) ∧
        Walkable shown limit pages (offset + pageStep shown limit rows)
          (rows.drop (pageStep shown limit rows)))

theorem shownFirst_iff {shown : Row → Bool} {page : List Row} :
    ShownFirst shown page ↔ ∀ row ∈ page.drop (page.countP shown), shown row = false := by
  unfold ShownFirst
  induction page with
  | nil => simp
  | cons a page ih =>
      rw [List.pairwise_cons]
      by_cases ha : shown a = true
      · rw [List.countP_cons_of_pos ha, List.drop_succ_cons, ← ih]
        constructor
        · intro h
          exact h.2
        · intro h
          exact ⟨fun _ _ _ => ha, h⟩
      · rw [List.countP_cons_of_neg ha]
        constructor
        · rintro ⟨hhead, htail⟩
          have hskipped (row : Row) (hrow : row ∈ a :: page) : shown row = false := by
            rcases List.mem_cons.mp hrow with rfl | hrow
            · exact Bool.eq_false_iff.mpr ha
            · exact Bool.eq_false_iff.mpr fun h => ha (hhead row hrow h)
          intro row hrow
          exact hskipped row (List.mem_of_mem_drop hrow)
        · intro h
          cases hcount : page.countP shown with
          | zero =>
              have hnone (row : Row) (hrow : row ∈ page) : shown row = false := by
                have hzero := List.countP_eq_zero.mp hcount row hrow
                exact Bool.eq_false_iff.mpr hzero
              constructor
              · intro row hrow hshown
                rw [hnone row hrow] at hshown
                exact absurd hshown (by simp)
              · rw [ih, hcount]
                exact hnone
          | succ count =>
              -- too few rows are left for the page's count
              rw [hcount, List.drop_succ_cons] at h
              have hsplit : (page.take count ++ page.drop count).countP shown =
                  (page.take count).countP shown + (page.drop count).countP shown :=
                List.countP_append
              have hrest : (page.drop count).countP shown = 0 := by
                apply List.countP_eq_zero.mpr
                intro row hrow
                rw [h row hrow]
                simp
              have hle : (page.take count).countP shown ≤ (page.take count).length :=
                List.countP_le_length
              rw [List.take_append_drop, hrest, hcount] at hsplit
              rw [List.length_take] at hle
              omega

end Pages

theorem fetchPages_rows {Item : Type} {fetchPage : Nat → Nat → Option (PagedPage Item)}
    {pages offset total effectiveLimit : Nat} {rows : List Item} {truncated : Bool}
    {r : FetchAllPagedResult Item}
    (h : fetchPages fetchPage pages offset total effectiveLimit rows truncated = some r) :
    rows <+: r.rows := by
  induction pages generalizing offset total effectiveLimit rows truncated with
  | zero =>
      simp only [fetchPages, Option.some.injEq] at h
      rw [← h]
  | succ pages ih =>
      simp only [fetchPages, Option.bind_eq_bind, Option.bind_eq_some_iff] at h
      obtain ⟨page, _, h⟩ := h
      have happend : rows <+: rows ++ page.rows := List.prefix_append ..
      split at h
      · exact happend.trans (ih h)
      · rw [Option.some.injEq] at h
        rw [← h]
        exact happend

/-! ## A walk over one endpoint -/

section Walk

variable {Row Item : Type} {render : Row → Option Item} {table : List Row}
  {dbMaxRows : Option Int} {limit offset : Nat} {int32 : Nat → Option Int}

def pageAt (render : Row → Option Item) (table : List Row) (limit offset : Nat) :
    PagedPage Item :=
  let items := ((table.drop offset).take limit).filterMap render
  ⟨items, some (newPagination limit offset table.length items.length)⟩

theorem callPage_of_lt (hint32 : AssertsInt32 int32)
    (endpoint : Int → Int → Option (List Item × PaginationRes)) (hoffset : offset < 2 ^ 31) :
    callPage int32 endpoint PAGE_LIMIT offset =
      (endpoint PAGE_LIMIT offset).map fun answer => ⟨answer.1, some answer.2⟩ := by
  have hlimit : int32 PAGE_LIMIT = some (PAGE_LIMIT : Int) := hint32 PAGE_LIMIT
  have hwritten : int32 offset = some (offset : Int) := (hint32 offset).trans (if_pos hoffset)
  simp only [callPage, hlimit, hwritten, Option.bind_eq_bind, Option.bind_some]
  cases endpoint PAGE_LIMIT offset <;> rfl

theorem callPage_of_le (hint32 : AssertsInt32 int32)
    (endpoint : Int → Int → Option (List Item × PaginationRes)) (hoffset : 2 ^ 31 ≤ offset) :
    callPage int32 endpoint PAGE_LIMIT offset = none := by
  have hrefused : int32 offset = none := (hint32 offset).trans (if_neg (not_lt.mpr hoffset))
  simp only [callPage, hrefused, Option.bind_eq_bind, Option.bind_none, Option.bind_fun_none]

theorem callPage_eq (hint32 : AssertsInt32 int32)
    (hlimit : clampLimit dbMaxRows PAGE_LIMIT = limit) (hoffset : offset < 2 ^ 31) :
    callPage int32 (listEndpoint render table dbMaxRows) PAGE_LIMIT offset =
      some (pageAt render table limit offset) := by
  have hpositive : ¬((limit : Int) < 0 ∨ (offset : Int) < 0) := by omega
  rw [callPage_of_lt hint32 _ hoffset]
  unfold listEndpoint selectPage
  rw [hlimit]
  simp only [if_neg hpositive, Int.toNat_natCast]
  rfl

theorem pageAt_count (render : Row → Option Item) (table : List Row) (limit offset : Nat) :
    (pageAt render table limit offset).rows.length =
      ((table.drop offset).take limit).countP fun row => (render row).isSome :=
  List.length_filterMap_eq_countP ..

theorem learnLimit_pageAt {effectiveLimit : Nat}
    (h : effectiveLimit = 0 ∨ effectiveLimit = limit) :
    learnLimit (pageAt render table limit offset) effectiveLimit = limit := by
  unfold learnLimit
  split
  · simp only [pageAt, newPagination]
    split
    · exact Int.toNat_natCast limit
    · have hzero : limit = 0 := by omega
      rw [hzero]
      rfl
  · omega

theorem morePages_pageAt :
    morePages (pageAt render table limit offset) limit = true ↔
      ((table.drop offset).take limit).countP (fun row => (render row).isSome) <
        (table.drop offset).length := by
  have hcount := pageAt_count render table limit offset
  have hle : ((table.drop offset).take limit).countP (fun row => (render row).isSome) ≤
      (table.drop offset).length := by
    apply List.countP_le_length.trans
    rw [List.length_take]
    exact Nat.min_le_right ..
  simp only [morePages, pageAt, newPagination, decide_eq_true_iff] at hcount ⊢
  rw [hcount, List.length_drop]
  rw [List.length_drop] at hle
  omega

theorem nextOffset_of_more
    (hmore : morePages (pageAt render table limit offset) limit = true) :
    nextOffset (pageAt render table limit offset) limit offset =
      let count := ((table.drop offset).take limit).countP fun row => (render row).isSome
      if toInt32 (offset + count) ≠ 0 ∧ (offset : Int) < toInt32 (offset + count) then
        (toInt32 (offset + count)).toNat
      else offset + if limit = 0 then count else limit := by
  have hcount := pageAt_count render table limit offset
  have hnext : (newPagination limit offset table.length
      (pageAt render table limit offset).rows.length).nextOffset =
        toInt32 (offset + (pageAt render table limit offset).rows.length) := if_pos hmore
  rw [hcount] at hnext
  have hpage : (pageAt render table limit offset).pagination = some (newPagination limit offset
      table.length (pageAt render table limit offset).rows.length) := rfl
  simp only [nextOffset, hpage, hcount, hnext]

/-- The next page starts a step behind this one, unless a request can no longer ask for it. -/
theorem nextOffset_pageAt (hlimit : limit ≤ PAGE_LIMIT) (hoffset : offset < 2 ^ 31)
    (hmore : morePages (pageAt render table limit offset) limit = true) :
    let step := pageStep (fun row => (render row).isSome) limit (table.drop offset)
    let next := nextOffset (pageAt render table limit offset) limit offset
    next = offset + step ∨ (2 ^ 31 ≤ next ∧ 2 ^ 31 ≤ offset + step) := by
  have hle : ((table.drop offset).take limit).countP (fun row => (render row).isSome) ≤ limit :=
    List.countP_le_length.trans (List.length_take_le ..)
  have hpage : PAGE_LIMIT = 100 := rfl
  rw [nextOffset_of_more hmore]
  simp only [pageStep]
  generalize ((table.drop offset).take limit).countP (fun row => (render row).isSome) = count at *
  by_cases hzero : count = 0
  · -- no row of the page is shown: the client goes on by a whole page
    rw [hzero, toInt32_of_lt (by omega) (by omega), if_neg (by omega), if_pos rfl]
    left
    split
    · omega
    · rfl
  · rw [if_neg hzero]
    by_cases hfits : offset + count < 2 ^ 31
    · rw [toInt32_of_lt (by omega) (by omega), if_pos (by omega)]
      omega
    · have hwraps := toInt32_neg (n := (offset : Int) + count) (by omega) (by omega)
      rw [if_neg (by omega), if_neg (by omega)]
      omega

theorem pageStep_le (shown : Row → Bool) (limit : Nat) (rows : List Row) :
    pageStep shown limit rows ≤ limit := by
  have hle : (rows.take limit).countP shown ≤ limit :=
    List.countP_le_length.trans (List.length_take_le ..)
  unfold pageStep
  split
  · exact le_refl limit
  · exact hle

/-- Behind a page that shows its rows first, everything up to the next page is collected. -/
theorem collected_step
    (hfirst : ShownFirst (fun row => (render row).isSome) ((table.drop offset).take limit)) :
    (table.take (offset + pageStep (fun row => (render row).isSome) limit
        (table.drop offset))).filterMap render =
      (table.take offset).filterMap render ++ (pageAt render table limit offset).rows := by
  have hstep := pageStep_le (fun row => (render row).isSome) limit (table.drop offset)
  have hrest : (((table.drop offset).take limit).drop
      (pageStep (fun row => (render row).isSome) limit (table.drop offset))).filterMap render =
        [] := by
    rw [List.filterMap_eq_nil_iff]
    intro row hrow
    unfold pageStep at hrow
    split at hrow
    · -- behind a whole page there is nothing of it
      rw [List.drop_of_length_le (List.length_take_le ..)] at hrow
      exact absurd hrow List.not_mem_nil
    · have hskipped := shownFirst_iff.mp hfirst row hrow
      simpa using hskipped
  rw [List.take_add, List.filterMap_append]
  congr 1
  show _ = ((table.drop offset).take limit).filterMap render
  conv_rhs => rw [← List.take_append_drop (pageStep (fun row => (render row).isSome) limit
    (table.drop offset)) ((table.drop offset).take limit), List.filterMap_append, hrest,
    List.append_nil, List.take_take, Nat.min_eq_left hstep]

/-- A page that skips a row before one it shows is followed by a page that shows a row again. -/
theorem shown_twice
    (hfirst : ¬ShownFirst (fun row => (render row).isSome) ((table.drop offset).take limit)) :
    ∃ item ∈ (pageAt render table limit offset).rows,
      item ∈ (pageAt render table limit (offset + pageStep (fun row => (render row).isSome) limit
        (table.drop offset))).rows := by
  simp only [shownFirst_iff, not_forall, Bool.not_eq_false, exists_prop] at hfirst
  obtain ⟨row, hrow, hshown⟩ := hfirst
  obtain ⟨item, hitem⟩ := Option.isSome_iff_exists.mp hshown
  have hmem := List.mem_of_mem_drop hrow
  have hcount : ((table.drop offset).take limit).countP (fun row => (render row).isSome) ≠ 0 := by
    intro hzero
    exact List.countP_eq_zero.mp hzero row hmem hshown
  refine ⟨item, List.mem_filterMap.mpr ⟨row, hmem, hitem⟩, ?_⟩
  apply List.mem_filterMap.mpr
  refine ⟨row, ?_, hitem⟩
  unfold pageStep
  rw [if_neg hcount, ← List.drop_drop]
  rw [List.drop_take] at hrow
  exact (List.take_sublist_take_left (Nat.sub_le ..)).subset hrow

variable (render table) in
/-- One round of the loop at an offset that a request can ask for. -/
theorem fetchPages_succ (hint32 : AssertsInt32 int32)
    (hclamp : clampLimit dbMaxRows PAGE_LIMIT = limit)
    (hoffset : offset < 2 ^ 31) {effectiveLimit : Nat}
    (heffective : effectiveLimit = 0 ∨ effectiveLimit = limit) (pages total : Nat)
    (rows : List Item) (truncated : Bool) :
    ∃ total' total'', fetchPages (callPage int32 (listEndpoint render table dbMaxRows)) (pages + 1)
        offset total effectiveLimit rows truncated =
      if morePages (pageAt render table limit offset) limit then
        fetchPages (callPage int32 (listEndpoint render table dbMaxRows)) pages
          (nextOffset (pageAt render table limit offset) limit offset) total' limit
          (rows ++ (pageAt render table limit offset).rows) (truncated || pages == 0)
      else some ⟨rows ++ (pageAt render table limit offset).rows, total'', truncated⟩ := by
  simp only [fetchPages, callPage_eq hint32 hclamp hoffset, Option.bind_eq_bind, Option.bind_some,
    learnLimit_pageAt heffective]
  exact ⟨_, _, rfl⟩

theorem fetchPages_beyond (hint32 : AssertsInt32 int32) (hoffset : 2 ^ 31 ≤ offset) {pages total effectiveLimit : Nat}
    (rows : List Item) (truncated : Bool) :
    fetchPages (callPage int32 (listEndpoint render table dbMaxRows)) (pages + 1) offset total
      effectiveLimit rows truncated = none := by
  simp only [fetchPages, callPage_of_le hint32 _ hoffset, Option.bind_eq_bind, Option.bind_none]

theorem not_covers_none (items : List Item) : ¬Covers none items := by
  rintro ⟨_, h, _⟩
  exact absurd h (by simp)

theorem collected_last (hlast : ¬morePages (pageAt render table limit offset) limit = true) :
    (table.take offset).filterMap render ++ (pageAt render table limit offset).rows =
      table.filterMap render := by
  rw [morePages_pageAt, not_lt] at hlast
  have hcount := List.countP_le_length (p := fun row => (render row).isSome)
    (l := (table.drop offset).take limit)
  have hwhole : (table.drop offset).take limit = table.drop offset := by
    apply List.take_of_length_le
    rw [List.length_take] at hcount
    omega
  show _ ++ ((table.drop offset).take limit).filterMap render = _
  rw [hwhole, ← List.filterMap_append, List.take_append_drop]

theorem collected_prefix :
    (table.take offset).filterMap render ++ (pageAt render table limit offset).rows <+:
      table.filterMap render := by
  have hpage : (table.take offset).filterMap render ++ (pageAt render table limit offset).rows =
      (table.take (offset + limit)).filterMap render := by
    rw [List.take_add, List.filterMap_append]
    rfl
  rw [hpage]
  exact (List.take_prefix ..).filterMap render

/-- A page that another one follows has to show its rows first. -/
theorem not_covers_of_disorder (hint32 : AssertsInt32 int32)
    (hclamp : clampLimit dbMaxRows PAGE_LIMIT = limit)
    (hunique : (table.filterMap render).Nodup) {pages total next : Nat}
    (hfirst : ¬ShownFirst (fun row => (render row).isSome) ((table.drop offset).take limit))
    (hnext : next = offset + pageStep (fun row => (render row).isSome) limit (table.drop offset))
    (rows : List Item) :
    ¬Covers (fetchPages (callPage int32 (listEndpoint render table dbMaxRows)) (pages + 1) next total
      limit (rows ++ (pageAt render table limit offset).rows) false) (table.filterMap render) := by
  rintro ⟨r, hr, hall, hprefix⟩
  have hwithin : r.rows <+: table.filterMap render := by
    cases htruncated : r.truncated with
    | false => rw [hall htruncated]
    | true => exact hprefix htruncated
  by_cases hoffset : next < 2 ^ 31
  · obtain ⟨_, _, hround⟩ := fetchPages_succ render table hint32 hclamp hoffset (Or.inr rfl) pages
      total (rows ++ (pageAt render table limit offset).rows) false
    rw [hround] at hr
    have hcollected : rows ++ (pageAt render table limit offset).rows ++
        (pageAt render table limit next).rows <+: r.rows := by
      split at hr
      · exact fetchPages_rows hr
      · rw [Option.some.injEq] at hr
        rw [← hr]
    have hnodup := hunique.sublist (hcollected.trans hwithin).sublist
    rw [List.nodup_append] at hnodup
    obtain ⟨item, hitem, hagain⟩ := shown_twice hfirst
    rw [← hnext] at hagain
    exact hnodup.2.2 item (List.mem_append_right _ hitem) item hagain rfl
  · rw [fetchPages_beyond hint32 (not_lt.mp hoffset)] at hr
    exact absurd hr (by simp)

variable (offset) in
theorem walk_iff (hint32 : AssertsInt32 int32) (hclamp : clampLimit dbMaxRows PAGE_LIMIT = limit)
    (hunique : (table.filterMap render).Nodup ∨ ∀ row, (render row).isSome = true)
    {pages total effectiveLimit : Nat} (heffective : effectiveLimit = 0 ∨ effectiveLimit = limit) :
    Covers (fetchPages (callPage int32 (listEndpoint render table dbMaxRows)) (pages + 1) offset total
        effectiveLimit ((table.take offset).filterMap render) false) (table.filterMap render) ↔
      Walkable (fun row => (render row).isSome) limit (pages + 1) offset (table.drop offset) := by
  have hlimit : limit ≤ PAGE_LIMIT := by
    have hle : clampLimit dbMaxRows PAGE_LIMIT ≤ PAGE_LIMIT := clampLimit_le _ (by decide)
    rw [hclamp] at hle
    exact Int.ofNat_le.mp hle
  induction pages generalizing offset total effectiveLimit with
  | zero =>
      rw [Walkable]
      by_cases hoffset : offset < 2 ^ 31
      · obtain ⟨_, _, hround⟩ := fetchPages_succ render table hint32 hclamp hoffset heffective 0 total
          ((table.take offset).filterMap render) false
        rw [hround]
        refine iff_of_true ?_ ⟨hoffset, fun h => absurd rfl h⟩
        split
        · exact ⟨_, rfl, fun h => absurd h (by simp), fun _ => collected_prefix⟩
        · next hlast => exact ⟨_, rfl, fun _ => collected_last hlast, fun h => absurd h (by simp)⟩
      · rw [fetchPages_beyond hint32 (not_lt.mp hoffset)]
        exact iff_of_false (not_covers_none _) fun h => hoffset h.1
  | succ pages ih =>
      rw [Walkable]
      by_cases hoffset : offset < 2 ^ 31
      · obtain ⟨total', _, hround⟩ := fetchPages_succ render table hint32 hclamp hoffset heffective
          (pages + 1) total ((table.take offset).filterMap render) false
        rw [hround]
        by_cases hmore : morePages (pageAt render table limit offset) limit = true
        · have hcount := morePages_pageAt.mp hmore
          have hnext := nextOffset_pageAt hlimit hoffset hmore
          rw [if_pos hmore]
          show Covers (fetchPages _ (pages + 1) _ _ _ _ false) _ ↔ _
          by_cases hfirst :
              ShownFirst (fun row => (render row).isSome) ((table.drop offset).take limit)
          · rcases hnext with hnext | ⟨hbeyond, hstep⟩
            · rw [hnext, ← collected_step hfirst]
              apply (ih _ (Or.inr rfl)).trans
              rw [← List.drop_drop]
              constructor
              · intro h
                exact ⟨hoffset, fun _ _ => ⟨hfirst, h⟩⟩
              · intro h
                exact (h.2 (Nat.succ_ne_zero _) hcount).2
            · rw [fetchPages_beyond hint32 hbeyond]
              refine iff_of_false (not_covers_none _) ?_
              intro h
              have hwalkable := (h.2 (Nat.succ_ne_zero _) hcount).2
              rw [Walkable] at hwalkable
              omega
          · have hdistinct := hunique.resolve_right fun hall =>
              hfirst (List.pairwise_of_forall_mem_list fun row _ _ _ _ => hall row)
            refine iff_of_false ?_ fun h => hfirst (h.2 (Nat.succ_ne_zero _) hcount).1
            rcases hnext with hnext | ⟨hbeyond, _⟩
            · exact not_covers_of_disorder hint32 hclamp hdistinct hfirst hnext _
            · rw [fetchPages_beyond hint32 hbeyond]
              exact not_covers_none _
        · rw [if_neg hmore]
          have hcount := fun h => hmore (morePages_pageAt.mpr h)
          refine iff_of_true ?_ ⟨hoffset, fun _ h => absurd h hcount⟩
          exact ⟨_, rfl, fun _ => collected_last hmore, fun h => absurd h (by simp)⟩
      · rw [fetchPages_beyond hint32 (not_lt.mp hoffset)]
        exact iff_of_false (not_covers_none _) fun h => hoffset h.1

end Walk

/-- The table can be walked: the endpoint's page size is not negative, and its pages are in
order. -/
def CanWalk {Row : Type} (shown : Row → Bool) (table : List Row) (dbMaxRows maxPages : Option Int) :
    Prop :=
  0 ≤ clampLimit dbMaxRows PAGE_LIMIT ∧
    Walkable shown (clampLimit dbMaxRows PAGE_LIMIT).toNat (maxPagesOf maxPages) 0 table

theorem fetchAllPaged_covers_iff {Row Item : Type} {render : Row → Option Item} {table : List Row}
    {int32 : Nat → Option Int} (hint32 : AssertsInt32 int32)
    (hunique : (table.filterMap render).Nodup ∨ ∀ row, (render row).isSome = true)
    (dbMaxRows maxPages : Option Int) :
    Covers (fetchAllPaged (callPage int32 (listEndpoint render table dbMaxRows)) maxPages)
        (table.filterMap render) ↔
      CanWalk (fun row => (render row).isSome) table dbMaxRows maxPages := by
  obtain ⟨pages, hpages⟩ : ∃ pages, maxPagesOf maxPages = pages + 1 := by
    apply Nat.exists_eq_succ_of_ne_zero
    unfold maxPagesOf
    omega
  unfold fetchAllPaged CanWalk
  rw [hpages]
  by_cases hlimit : 0 ≤ clampLimit dbMaxRows PAGE_LIMIT
  · rw [and_iff_right hlimit]
    exact walk_iff 0 hint32 (Int.toNat_of_nonneg hlimit).symm hunique (Or.inl rfl)
  · -- the database refuses every page
    have hnone : callPage int32 (listEndpoint render table dbMaxRows) PAGE_LIMIT 0 = none := by
      have hnegative : clampLimit dbMaxRows PAGE_LIMIT < 0 := not_le.mp hlimit
      rw [callPage_of_lt hint32 _ (by decide)]
      simp [listEndpoint, selectPage, hnegative]
    simp only [fetchPages, hnone, Option.bind_eq_bind, Option.bind_none]
    exact iff_of_false (not_covers_none _) fun h => hlimit h.1

/-- A table that an endpoint shows in full can be walked, as far as a request's offset reaches. -/
theorem canWalk_of_shown {Row : Type} {table : List Row} {dbMaxRows : Option Int}
    (hlimit : 0 ≤ clampLimit dbMaxRows PAGE_LIMIT) (hlength : table.length ≤ 2 ^ 31)
    (maxPages : Option Int) : CanWalk (fun _ => true) table dbMaxRows maxPages := by
  refine ⟨hlimit, ?_⟩
  generalize (clampLimit dbMaxRows PAGE_LIMIT).toNat = limit
  suffices hwalk : ∀ pages offset (rows : List Row), offset < 2 ^ 31 →
      offset + rows.length ≤ 2 ^ 31 → Walkable (fun _ => true) limit pages offset rows by
    exact hwalk _ 0 table (by decide) (by omega)
  intro pages
  induction pages with
  | zero => exact fun _ _ _ _ => trivial
  | succ pages ih =>
      intro offset rows hoffset hfits
      refine ⟨hoffset, fun _ hmore => ?_⟩
      rw [List.countP_true, List.length_take] at hmore
      have hstep : pageStep (fun _ => true) limit rows = limit := by
        unfold pageStep
        rw [List.countP_true, List.length_take]
        split <;> omega
      constructor
      · exact List.pairwise_of_forall fun _ _ _ => rfl
      · rw [hstep]
        apply ih
        · omega
        · rw [List.length_drop]
          omega

/-- A walk returns every row that an endpoint shows exactly once, in the endpoint's order, exactly
when the table can be walked: for the prediction intents, and for every endpoint that shows all of
its rows. -/
theorem paged_reads_cover_iff {int32 : Nat → Option Int} (hint32 : AssertsInt32 int32)
    (dbMaxRows maxPages : Option Int) :
    (∀ uuid table,
      (table.listed.filterMap (shownIntent uuid)).Nodup ∧
      (Covers (fetchAllPaged (callPage int32 (getAllPredictionIntents uuid table dbMaxRows)) maxPages)
          (table.listed.filterMap (shownIntent uuid)) ↔
        CanWalk (fun row => (shownIntent uuid row).isSome) table.listed dbMaxRows maxPages)) ∧
    ∀ {Row Item : Type} (render : Row → Item) (table : List Row),
      Covers (fetchAllPaged (callPage int32 (listEndpoint (fun row => some (render row)) table dbMaxRows))
          maxPages) (table.map render) ↔
        CanWalk (fun _ => true) table dbMaxRows maxPages := by
  constructor
  · intro uuid table
    have hnodup := table.shown_nodup uuid
    exact ⟨hnodup, fetchAllPaged_covers_iff hint32 (Or.inl hnodup) dbMaxRows maxPages⟩
  · intro Row Item render table
    rw [← List.filterMap_eq_map']
    exact fetchAllPaged_covers_iff hint32 (Or.inr fun _ => rfl) dbMaxRows maxPages

def signedIntent : PredictionIntent where
  txID := 2
  net := "testnet".toList
  marketID := 7
  accountID := "0.0.1001".toList
  sig := []
  publicKeyHex := []
  evmaddress := "0000000000000000000000000000000000000022".toList
  keytype := 1
  protocolVersion := 2
  chainID := some 296
  verifyingContract := some "00000000000000000000000000000000000000ab".toList
  side := some 1
  action := some 0
  limitYesPrice := some 625000
  qtyShares := some 10
  collateralCap := some 110
  deadline := some 2000000000
  sharesFilled := 0
  collateralFilled := 0
  qtyRem := 10
  cancelledAt := false
  fullyMatchedAt := false
  evictedAt := false

/-- A row from before the authorizations. -/
def legacyIntent : PredictionIntent :=
  { signedIntent with
    txID := 1, protocolVersion := 1, chainID := none, verifyingContract := none, side := none,
    action := none, limitYesPrice := none, qtyShares := none, collateralCap := none,
    deadline := none }

def assertedInt32 (n : Nat) : Option Int := if n < 2 ^ 31 then some n else none

instance (shown : Row → Bool) (page : List Row) : Decidable (ShownFirst shown page) :=
  inferInstanceAs (Decidable (page.Pairwise _))

instance Walkable.decidable (shown : Row → Bool) (limit : Nat) :
    (pages offset : Nat) → (rows : List Row) → Decidable (Walkable shown limit pages offset rows)
  | 0, _, _ => isTrue trivial
  | pages + 1, offset, rows =>
    have := Walkable.decidable shown limit pages (offset + pageStep shown limit rows)
      (rows.drop (pageStep shown limit rows))
    inferInstanceAs (Decidable (_ ∧ (_ → _ → _ ∧ _)))

/-- The legacy order is the older of the two: its page comes last. -/
theorem paged_reads_cover_sample :
    let table : IntentTable := ⟨[⟨legacyIntent, 10, false⟩, ⟨signedIntent, 20, false⟩], by decide⟩
    Covers (fetchAllPaged (callPage assertedInt32
        (getAllPredictionIntents sampleUuid table (some 50))) none)
      (table.listed.filterMap (shownIntent sampleUuid)) ∧
    Covers (fetchAllPaged (callPage assertedInt32
        (listEndpoint some (List.range 120) (some 50))) none) (List.range 120) := by
  have hreads := @paged_reads_cover_iff assertedInt32 (fun _ => rfl) (some 50) none
  refine ⟨(hreads.1 sampleUuid _).2.mpr ?_, ?_⟩
  · exact ⟨by decide, by decide +kernel⟩
  · have hshown := hreads.2 id (List.range 120)
    rw [List.map_id] at hshown
    exact hshown.mpr (canWalk_of_shown (by decide) (by decide) none)

def mixedTable : IntentTable where
  rows := [⟨legacyIntent, 20, false⟩, ⟨signedIntent, 10, false⟩]
  unique := by decide

/-- The second page starts at the order that the first page has shown. -/
theorem signed_order_twice :
    ((fetchAllPaged (callPage assertedInt32
      (getAllPredictionIntents sampleUuid mixedTable (some 50))) none).map
      fun r => (r.rows.map (·.txId), r.truncated)) =
        some ([uuidText 2, uuidText 2], false) := by
  decide +kernel

/-- The walk reads an order twice. -/
theorem paged_reads_repeat :
    ¬∀ int32, AssertsInt32 int32 → ∀ uuid table dbMaxRows maxPages,
      Covers (fetchAllPaged (callPage int32 (getAllPredictionIntents uuid table dbMaxRows)) maxPages)
        (table.listed.filterMap (shownIntent uuid)) := by
  intro h
  obtain ⟨r, hr, hall, _⟩ := h assertedInt32 (fun _ => rfl) sampleUuid mixedTable (some 50) none
  have htwice := signed_order_twice
  rw [hr, Option.map_some, Option.some.injEq, Prod.mk.injEq] at htwice
  have honce : (mixedTable.listed.filterMap (shownIntent sampleUuid)).length = 1 := by
    decide +kernel
  have hlength := congrArg List.length htwice.1
  rw [List.length_map, hall htwice.2, honce] at hlength
  exact absurd hlength (by decide)

end PrismBackend.Web
