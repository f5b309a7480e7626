import OrderDepot.Proofs.Store.Contents
import OrderDepot.Proofs.Text.Numeral

/-!
# What an insertion inserts

The text of an insertion names the columns in its first brackets, and each of the brackets behind them holds the numbers
of the values of one row. So the rows are told by the text and the values together. The insertion of some items numbers
its values from 1 without a gap, twelve for each row, and each value gets to its own column.
-/

namespace OrderDepot.Store.Relational

open Text (notMem_toDigits)

def Row.values (row : Row) : List Value := row.map fun field => field.2

/-- An insertion into the items, as its text says it. -/
structure Insertion where
  columns : List String
  numbers : List (List Nat)

namespace Insertion

def listText (parts : List (List Char)) : List Char := [',', ' '].intercalate parts

def numberText (n : Nat) : List Char := '$' :: Nat.toDigits 10 n

def numbersText (ns : List Nat) : List Char := listText (ns.map numberText)

def inBrackets (inside : List Char) : List Char := '(' :: inside ++ [')']

def text (ins : Insertion) : List Char :=
  "INSERT INTO items ".toList ++ inBrackets (listText (ins.columns.map String.toList)) ++ " VALUES ".toList ++
    listText ((ins.numbers.map numbersText).map inBrackets) ++ " ON CONFLICT DO NOTHING".toList

def bracketed (text : List Char) : List (List Char) :=
  (text.splitOn '(').tail.map fun part => part.takeWhile (· ≠ ')')

def listed (text : List Char) : List (List Char) :=
  (text.splitOn ',').map fun part => part.dropWhile (· = ' ')

def number? : List Char → Option Nat
  | '$' :: ds => if ds ≠ [] ∧ ds.all Char.isDigit then some (Nat.ofDigitChars 10 ds 0) else none
  | _ => none

def read (text : List Char) : Option Insertion :=
  match (bracketed text).map listed with
  | [] => none
  | columns :: rows =>
    (rows.mapM fun row => List.mapM number? row).map fun numbers => ⟨columns.map String.ofList, numbers⟩

def value? (values : List Value) : Nat → Option Value
  | 0 => none
  | n + 1 => values[n]?

def rows? (ins : Insertion) (values : List Value) : Option (List Row) :=
  ins.numbers.mapM fun ns => (ns.mapM (value? values)).map ins.columns.zip

theorem listText_cons_cons (p q : List Char) (parts : List (List Char)) :
    listText (p :: q :: parts) = p ++ ',' :: ' ' :: listText (q :: parts) := by
  rw [listText, List.intercalate_cons_cons, List.append_assoc]
  rfl

theorem notMem_listText {c : Char} {parts : List (List Char)} (hc : c ∉ [',', ' ']) (hparts : ∀ p ∈ parts, c ∉ p) :
    c ∉ listText parts := by
  induction parts with
  | nil => exact List.not_mem_nil
  | cons p parts ih =>
    obtain ⟨hp, hrest⟩ := List.forall_mem_cons.1 hparts
    cases parts with
    | nil => simpa [listText] using hp
    | cons q parts =>
      rw [listText_cons_cons]
      simp only [List.mem_cons, List.not_mem_nil, or_false, not_or] at hc
      simp only [List.mem_append, List.mem_cons, not_or]
      exact ⟨hp, hc.1, hc.2, ih hrest⟩

theorem notMem_numberText {c : Char} (hc : c ≠ '$') (hdigit : c.isDigit = false) (n : Nat) : c ∉ numberText n := by
  rw [numberText, List.mem_cons, not_or]
  exact ⟨hc, notMem_toDigits hdigit n⟩

theorem notMem_numbersText {c : Char} (hc : c ∉ [',', ' ', '$']) (hdigit : c.isDigit = false) (ns : List Nat) :
    c ∉ numbersText ns := by
  simp only [List.mem_cons, List.not_mem_nil, or_false, not_or] at hc
  refine notMem_listText (by simp [hc]) ?_
  rw [List.forall_mem_map]
  exact fun n _ => notMem_numberText hc.2.2 hdigit n

def Listable (part : List Char) : Prop := ',' ∉ part ∧ part.head? ≠ some ' '

theorem dropWhile_listable {part : List Char} (h : Listable part) : part.dropWhile (· = ' ') = part := by
  cases part with
  | nil => rfl
  | cons c part =>
    have hc : c ≠ ' ' := fun heq => h.2 (heq ▸ rfl)
    rw [List.dropWhile_cons, if_neg (by simpa using hc)]

theorem listed_blank (text : List Char) : listed (' ' :: text) = listed text := by
  obtain ⟨first, others, hsplit⟩ := List.exists_cons_of_ne_nil (List.splitOn_ne_nil ',' text)
  rw [listed, listed, List.splitOn_cons_eq_if_modifyHead, hsplit]
  rfl

theorem listed_listText {parts : List (List Char)} (hne : parts ≠ []) (h : ∀ p ∈ parts, Listable p) :
    listed (listText parts) = parts := by
  induction parts with
  | nil => exact absurd rfl hne
  | cons p parts ih =>
    obtain ⟨hp, hrest⟩ := List.forall_mem_cons.1 h
    cases parts with
    | nil => simp [listText, listed, List.splitOn_eq_singleton hp.1, dropWhile_listable hp]
    | cons q parts =>
      have hparts := ih (by simp) hrest
      rw [← listed_blank] at hparts
      rw [listText_cons_cons, listed, List.splitOn_append_cons_self_of_not_mem hp.1, List.map_cons,
        dropWhile_listable hp]
      exact congrArg (p :: ·) hparts

theorem listText_inBrackets (b : List Char) (bodies : List (List Char)) :
    ∃ more, '(' ∉ more ∧ listText ((b :: bodies).map inBrackets) =
      '(' :: (b ++ ')' :: (more ++ listText (bodies.map inBrackets))) := by
  cases bodies with
  | nil => exact ⟨[], by simp, by simp [listText, inBrackets]⟩
  | cons c bodies => exact ⟨[',', ' '], by decide, by simp [listText_cons_cons, inBrackets]⟩

theorem takeWhile_inside {inside : List Char} (h : ')' ∉ inside) (after : List Char) :
    (inside ++ ')' :: after).takeWhile (· ≠ ')') = inside := by
  have hinside : ∀ c ∈ inside, decide (c ≠ ')') = true := by
    intro c hc
    refine decide_eq_true fun heq => h ?_
    rw [← heq]
    exact hc
  rw [List.takeWhile_append_of_pos hinside]
  simp

theorem splitOn_inBrackets {inside : List Char} {bodies : List (List Char)} (more rest : List Char)
    (hinside : '(' ∉ inside ∧ ')' ∉ inside) (hmore : '(' ∉ more) (hrest : '(' ∉ rest)
    (hbodies : ∀ b ∈ bodies, '(' ∉ b ∧ ')' ∉ b) :
    ((inside ++ ')' :: (more ++ listText (bodies.map inBrackets) ++ rest)).splitOn '(').map
      (fun part => part.takeWhile (· ≠ ')')) = inside :: bodies := by
  induction bodies generalizing inside more with
  | nil =>
    have hlast : '(' ∉ inside ++ ')' :: (more ++ listText [] ++ rest) := by
      simp [listText, hinside.1, hmore, hrest]
    rw [List.map_nil, List.splitOn_eq_singleton hlast, List.map_singleton, takeWhile_inside hinside.2]
  | cons b bodies ih =>
    obtain ⟨hb, hothers⟩ := List.forall_mem_cons.1 hbodies
    obtain ⟨more', hmore', hnext⟩ := listText_inBrackets b bodies
    have hbefore : '(' ∉ inside ++ ')' :: more := by
      simp [hinside.1, hmore]
    have hsplit : inside ++ ')' :: (more ++ listText ((b :: bodies).map inBrackets) ++ rest) =
        (inside ++ ')' :: more) ++ '(' :: (b ++ ')' :: (more' ++ listText (bodies.map inBrackets) ++ rest)) := by
      rw [hnext]
      simp
    rw [hsplit, List.splitOn_append_cons_self_of_not_mem hbefore, List.map_cons, takeWhile_inside hinside.2,
      ih more' hb hmore' hothers]

structure Plain (ins : Insertion) : Prop where
  columns : ins.columns ≠ []
  names : ∀ name ∈ ins.columns, '(' ∉ name.toList ∧ ')' ∉ name.toList ∧ Listable name.toList
  numbers : ∀ ns ∈ ins.numbers, ns ≠ []

theorem bracketed_text {ins : Insertion} (h : ins.Plain) :
    bracketed ins.text = listText (ins.columns.map String.toList) :: ins.numbers.map numbersText := by
  have hcolumns : ∀ c ∉ [',', ' '], (∀ name ∈ ins.columns, c ∉ name.toList) →
      c ∉ listText (ins.columns.map String.toList) := by
    intro c hc hnames
    exact notMem_listText hc (List.forall_mem_map.2 hnames)
  have hopen := hcolumns '(' (by decide) fun name hname => (h.names name hname).1
  have hclose := hcolumns ')' (by decide) fun name hname => (h.names name hname).2.1
  have hbodies : ∀ b ∈ ins.numbers.map numbersText, '(' ∉ b ∧ ')' ∉ b := by
    rw [List.forall_mem_map]
    exact fun ns _ => ⟨notMem_numbersText (by decide) rfl ns, notMem_numbersText (by decide) rfl ns⟩
  have hrows := splitOn_inBrackets " VALUES ".toList " ON CONFLICT DO NOTHING".toList ⟨hopen, hclose⟩ (by decide)
    (by decide) hbodies
  have hstart : '(' ∉ "INSERT INTO items ".toList := by decide
  have hshape : ∀ a b c d e : List Char,
      a ++ inBrackets b ++ c ++ d ++ e = a ++ '(' :: (b ++ ')' :: (c ++ d ++ e)) := by
    intro a b c d e
    simp [inBrackets]
  unfold bracketed text
  rw [hshape, List.splitOn_append_cons_self_of_not_mem hstart, List.tail_cons, hrows]

theorem number?_numberText (n : Nat) : number? (numberText n) = some n := by
  have hdigits : (Nat.toDigits 10 n).all Char.isDigit = true :=
    List.all_eq_true.2 fun c hc => Nat.isDigit_of_mem_toDigits (by decide) (by decide) hc
  rw [numberText, number?, if_pos ⟨Nat.toDigits_ne_nil, hdigits⟩, Nat.ofDigitChars_ten_toDigits]

theorem mapM_inverse {α β : Type} {f : α → β} {g : β → Option α} (h : ∀ a, g (f a) = some a) (as : List α) :
    (as.map f).mapM g = some as := by
  induction as with
  | nil => rfl
  | cons a as ih =>
    rw [List.map_cons, List.mapM_cons, h, ih]
    rfl

theorem listable_numberText (n : Nat) : Listable (numberText n) :=
  ⟨notMem_numberText (by decide) rfl n, by simp [numberText]⟩

theorem listed_numbersText {ns : List Nat} (hne : ns ≠ []) : listed (numbersText ns) = ns.map numberText := by
  refine listed_listText (by simpa using hne) ?_
  rw [List.forall_mem_map]
  exact fun n _ => listable_numberText n

theorem read_text {ins : Insertion} (h : ins.Plain) : read ins.text = some ins := by
  have hcolumns : listed (listText (ins.columns.map String.toList)) = ins.columns.map String.toList := by
    refine listed_listText (by simpa using h.columns) ?_
    rw [List.forall_mem_map]
    exact fun name hname => (h.names name hname).2.2
  have hrows : (ins.numbers.map numbersText).map listed = ins.numbers.map fun ns => ns.map numberText := by
    rw [List.map_map]
    exact List.map_congr_left fun ns hns => listed_numbersText (h.numbers ns hns)
  have hnumbers := mapM_inverse (g := fun row => List.mapM number? row) (mapM_inverse number?_numberText) ins.numbers
  have hnames : (ins.columns.map String.toList).map String.ofList = ins.columns := by
    rw [List.map_map]
    exact (List.map_congr_left fun name _ => String.ofList_toList).trans (List.map_id _)
  rw [read, bracketed_text h, List.map_cons, hcolumns, hrows]
  dsimp only
  rw [hnumbers, hnames]
  rfl

def numbersFrom (width first : Nat) : Nat → List (List Nat)
  | 0 => []
  | n + 1 => List.range' first width :: numbersFrom width (first + width) n

theorem length_numbersFrom (width first n : Nat) : (numbersFrom width first n).length = n := by
  induction n generalizing first with
  | zero => rfl
  | succ n ih => rw [numbersFrom, List.length_cons, ih]

theorem length_of_mem_numbersFrom {width first n : Nat} : ∀ ns ∈ numbersFrom width first n, ns.length = width := by
  induction n generalizing first with
  | zero => exact List.forall_mem_nil _
  | succ n ih => exact List.forall_mem_cons.2 ⟨List.length_range', ih⟩

theorem flatten_numbersFrom (width first n : Nat) :
    (numbersFrom width first n).flatten = List.range' first (width * n) := by
  induction n generalizing first with
  | zero => rfl
  | succ n ih =>
    have hrest : List.range' (first + width) (width * n) = List.range' (first + 1 * width) (width * n) := by
      rw [Nat.one_mul]
    rw [numbersFrom, List.flatten_cons, ih, hrest, List.range'_append, Nat.mul_succ, Nat.add_comm width]

theorem mapM_value? (before values after : List Value) :
    (List.range' (before.length + 1) values.length).mapM (value? (before ++ values ++ after)) = some values := by
  induction values generalizing before with
  | nil => rfl
  | cons v values ih =>
    have hfirst : value? (before ++ v :: values ++ after) (before.length + 1) = some v := by
      simp [value?]
    have hrest := ih (before ++ [v])
    rw [List.length_append, List.length_singleton, List.append_assoc before [v], List.singleton_append] at hrest
    rw [List.length_cons, List.range'_succ, List.mapM_cons, hfirst, hrest]
    rfl

theorem rows?_numbersFrom {columns : List String} {rows : List Row} (hrows : ∀ row ∈ rows, row.names = columns)
    (before : List Value) :
    (Insertion.mk columns (numbersFrom columns.length (before.length + 1) rows.length)).rows?
      (before ++ rows.flatMap Row.values) = some rows := by
  induction rows generalizing before with
  | nil => rfl
  | cons row rows ih =>
    obtain ⟨hrow, hothers⟩ := List.forall_mem_cons.1 hrows
    have hwidth : row.values.length = columns.length := by
      rw [← hrow, Row.values, Row.names, List.length_map, List.length_map]
    have hvalues := mapM_value? before row.values (rows.flatMap Row.values)
    have hzip : columns.zip row.values = row := (List.zip_of_prod hrow rfl).symm
    have hrest := ih hothers (before ++ row.values)
    rw [List.length_append, hwidth, Nat.add_right_comm] at hrest
    rw [hwidth] at hvalues
    simp only [rows?] at hrest ⊢
    rw [List.length_cons, numbersFrom, List.flatMap_cons, List.mapM_cons, ← List.append_assoc, hvalues, hrest,
      Option.map_some, hzip]
    rfl

theorem toList_commas (parts : List String) : (Statement.commas parts).toList = listText (parts.map String.toList) := by
  rw [Statement.commas, String.toList_intercalate]
  rfl

theorem toList_placeholders (first count : Nat) :
    (Statement.placeholders first count).toList = inBrackets (numbersText (List.range' first count)) := by
  have hnumber : ∀ n : Nat, ("$" ++ toString n).toList = numberText n := by
    intro n
    have hdigits : (toString n).toList = Nat.toDigits 10 n := by
      rw [Nat.toString_eq_ofList_toDigits, String.toList_ofList]
    rw [String.toList_append, hdigits]
    rfl
  have hnumbers : ((List.range' first count).map fun n => "$" ++ toString n).map String.toList =
      (List.range' first count).map numberText := by
    rw [List.map_map]
    exact List.map_congr_left fun n _ => hnumber n
  rw [Statement.placeholders, String.toList_append, String.toList_append, toList_commas, hnumbers]
  rfl

theorem toList_placeholderRows (width first n : Nat) :
    (Statement.placeholderRows width first n).map String.toList =
      ((numbersFrom width first n).map numbersText).map inBrackets := by
  induction n generalizing first with
  | zero => rfl
  | succ n ih =>
    rw [Statement.placeholderRows, numbersFrom, List.map_cons, List.map_cons, List.map_cons, ih, toList_placeholders]

def ofItems (count : Nat) : Insertion := ⟨Table.items.columns, numbersFrom 12 1 count⟩

theorem toList_text_insertItems (rows : List Row) :
    (Statement.insertItems rows).text.toList = (ofItems rows.length).text := by
  have hcolumns : (Statement.columnList .items Table.items.columns).toList = inBrackets (listText (Table.items.columns.map String.toList)) := by
    rw [Statement.columnList, String.toList_append, String.toList_append, toList_commas]
    rfl
  unfold Statement.text text
  simp only [String.toList_append, toList_commas, toList_placeholderRows, hcolumns]
  rfl

example : (Statement.insertItems [itemRow ⟨"a"⟩ {}, itemRow ⟨"a"⟩ {}]).text =
    "INSERT INTO items (order_uid, chrt_id, track_number, price, rid, name, sale, size, total_price, nm_id, brand, " ++
      "status) VALUES ($1, $2, $3, $4, $5, $6, $7, $8, $9, $10, $11, $12), ($13, $14, $15, $16, $17, $18, $19, $20, " ++
      "$21, $22, $23, $24) ON CONFLICT DO NOTHING" := by
  decide +kernel

theorem plain_ofItems (count : Nat) : (ofItems count).Plain := by
  have hnames : ∀ name ∈ Table.items.columns,
      '(' ∉ name.toList ∧ ')' ∉ name.toList ∧ ',' ∉ name.toList ∧ name.toList.head? ≠ some ' ' := by
    decide
  refine ⟨List.cons_ne_nil _ _, hnames, ?_⟩
  intro ns hns heq
  have hlength := length_of_mem_numbersFrom ns hns
  rw [heq] at hlength
  cases hlength

end Insertion

def itemFields (uid : OrderUid) (i : Item) : Row :=
  [("order_uid", .text uid.text), ("chrt_id", .integer i.chrtId.toInt), ("track_number", .text i.trackNumber),
   ("price", .integer i.price.toInt), ("rid", .text i.rid), ("name", .text i.name), ("sale", .integer i.sale.toInt),
   ("size", .text i.size), ("total_price", .integer i.totalPrice.toInt), ("nm_id", .integer i.nmId.toInt),
   ("brand", .text i.brand), ("status", .integer i.status.toInt)]

theorem itemRow_eq_itemFields (uid : OrderUid) (i : Item) : itemRow uid i = itemFields uid i := rfl

theorem rows?_insertItems (uid : OrderUid) (items : List Item) :
    (Insertion.ofItems items.length).rows? (Statement.insertItems (items.map (itemRow uid))).params =
      some (items.map (itemFields uid)) := by
  have hnames : ∀ row ∈ items.map (itemRow uid), row.names = Table.items.columns :=
    List.forall_mem_map.2 fun _ _ => rfl
  have hfields : items.map (itemRow uid) = items.map (itemFields uid) :=
    List.map_congr_left fun i _ => itemRow_eq_itemFields uid i
  have hrows := Insertion.rows?_numbersFrom hnames []
  rw [List.length_map] at hrows
  rw [← hfields]
  exact hrows

end OrderDepot.Store.Relational
