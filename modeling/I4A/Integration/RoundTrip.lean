import I4A.Integration.Payload
import Mathlib.Algebra.Order.BigOperators.Group.List
import Mathlib.Algebra.Order.Group.Nat
import Mathlib.Data.List.Perm.Subperm
import Mathlib.Data.Set.List

/-! # From the ring to the server

The payload as a JSON text. It is read back as the ring if and only if the texts in the ring need no
escape: a string that does would need more room than it was given.
-/

namespace I4A

/-! ## The room that the result needs -/

namespace InfoServer

open Json

theorem forall₂_of_mapM {α β : Type} {f : α → Option β} {xs : List α} {ys : List β}
    (h : xs.mapM f = some ys) : List.Forall₂ (fun x y => f x = some y) xs ys := by
  induction xs generalizing ys with
  | nil =>
      rw [← Option.some.inj h]
      exact .nil
  | cons x xs ih =>
      rw [List.mapM_cons] at h
      obtain ⟨y, hy, h⟩ := Option.bind_eq_some_iff.mp h
      obtain ⟨rest, hrest, h⟩ := Option.bind_eq_some_iff.mp h
      rw [← Option.some.inj h]
      exact .cons hy (ih hrest)

theorem field_eq_some {z : Json × Json} {pair : JsonText × Json} (h : field z = some pair) :
    z = (.str pair.1, pair.2) := by
  obtain ⟨name, value⟩ := z
  unfold field at h
  split at h
  · rename_i heq
    rw [← Option.some.inj h]
    exact heq
  · cases h

theorem eq_map_of_mapM_field {zipped : List (Json × Json)} {pairs : List (JsonText × Json)}
    (h : zipped.mapM field = some pairs) :
    zipped = pairs.map fun pair => (.str pair.1, pair.2) := by
  have hrelated := forall₂_of_mapM h
  clear h
  induction hrelated with
  | nil => rfl
  | cons hfield _ ih => rw [List.map_cons, ← field_eq_some hfield, ← ih]

section Zip

variable {α β : Type} (names : List α) (values : List β)

theorem sum_zip_fst_le (weight : α → Nat) :
    ((names.zip values).map fun p => weight p.1).sum ≤ (names.map weight).sum := by
  induction names generalizing values with
  | nil => exact Nat.le_refl 0
  | cons name names ih =>
      cases values with
      | nil => exact Nat.zero_le _
      | cons value values =>
          rw [List.zip_cons_cons, List.map_cons, List.map_cons, List.sum_cons, List.sum_cons]
          exact Nat.add_le_add_left (ih values) _

theorem sum_zip_snd_le (weight : β → Nat) :
    ((names.zip values).map fun p => weight p.2).sum ≤ (values.map weight).sum := by
  induction names generalizing values with
  | nil => exact Nat.zero_le _
  | cons name names ih =>
      cases values with
      | nil => exact Nat.le_refl 0
      | cons value values =>
          rw [List.zip_cons_cons, List.map_cons, List.map_cons, List.sum_cons, List.sum_cons]
          exact Nat.add_le_add_left (ih values) _

end Zip

/-- The parts of a record: fields by name, from a row and from names that are strings. -/
theorem pairs_of_node {fields row : Json} {record : Node} (h : node fields row = some record) :
    ∃ names values pairs, iter fields = some names ∧ iter row = some values ∧
      names.zip values = pairs.map (fun pair => (.str pair.1, pair.2)) ∧ record = dict pairs := by
  rw [node] at h
  obtain ⟨names, hnames, h⟩ := Option.bind_eq_some_iff.mp h
  obtain ⟨values, hvalues, h⟩ := Option.bind_eq_some_iff.mp h
  obtain ⟨pairs, hpairs, h⟩ := Option.bind_eq_some_iff.mp h
  exact ⟨names, values, pairs, hnames, hvalues, eq_map_of_mapM_field hpairs,
    (Option.some.inj h).symm⟩

/-- The elements of anything but an array are strings. -/
theorem iter_cases {value : Json} {items : List Json} (h : iter value = some items) :
    value = .arr items ∨ ∀ item ∈ items, ∃ s, item = .str s := by
  cases value with
  | arr xs => exact .inl (by rw [← Option.some.inj h])
  | str s =>
      right
      rw [← Option.some.inj h]
      intro item hitem
      obtain ⟨code, -, rfl⟩ := List.mem_map.mp hitem
      exact ⟨_, rfl⟩
  | obj entries =>
      right
      rw [← Option.some.inj h]
      intro item hitem
      obtain ⟨entry, -, rfl⟩ := List.mem_map.mp hitem
      exact ⟨_, rfl⟩
  | null => cases h
  | bool b => cases h
  | int n => cases h
  | float text => cases h

theorem elementsSize_le_of_iter {value : Json} {items : List Json} (h : iter value = some items)
    {name : JsonText} (hname : .str name ∈ items) (hlong : name.length ≠ 1) :
    1 + elementsSize items ≤ size value := by
  cases value with
  | arr xs =>
      rw [← Option.some.inj h]
      exact Nat.le_refl _
  | str s =>
      rw [← Option.some.inj h] at hname
      obtain ⟨code, -, hcode⟩ := List.mem_map.mp hname
      rw [← Json.str.inj hcode] at hlong
      exact absurd rfl hlong
  | obj entries =>
      rw [← Option.some.inj h, elementsSize_eq, size, entriesSize_eq, List.map_map]
      refine Nat.add_le_add_left (List.sum_le_sum fun entry _ => ?_) 1
      simp only [Function.comp_apply, size, entrySize]
      omega
  | null => cases h
  | bool b => cases h
  | int n => cases h
  | float text => cases h

/-- A record of a row takes the room of its values from the row, and that of its names from the
fields. -/
theorem size_of_node {fields row : Json} {record : Node} (h : node fields row = some record)
    {name : JsonText} {n : Int} (hnumber : (name, .int n) ∈ record) (hlong : name.length ≠ 1) :
    (∃ values, row = .arr values) ∧
      1 + (record.map fun entry => size entry.2 + 1).sum ≤ size row ∧
      1 + (record.map fun entry => textSize entry.1 + 1).sum ≤ size fields := by
  obtain ⟨names, values, pairs, hnames, hvalues, hzip, rfl⟩ := pairs_of_node h
  have hmem : (Json.str name, Json.int n) ∈ names.zip values := by
    rw [hzip]
    exact List.mem_map.mpr ⟨_, mem_of_mem_dict hnumber, rfl⟩
  obtain ⟨hname, hvalue⟩ := List.of_mem_zip hmem
  have hrow : row = .arr values := by
    rcases iter_cases hvalues with hrow | hstrings
    · exact hrow
    · obtain ⟨s, hs⟩ := hstrings _ hvalue
      cases hs
  refine ⟨⟨values, hrow⟩, ?_, ?_⟩
  · have hdict := sum_dict_le (fun entry => size entry.2 + 1) pairs
    have hvaluesSize := sum_zip_snd_le names values fun value => size value + 1
    rw [hzip, List.map_map] at hvaluesSize
    rw [hrow, size, elementsSize_eq]
    exact Nat.add_le_add_left (Nat.le_trans hdict hvaluesSize) 1
  · have hdict := sum_dict_le (fun entry => textSize entry.1 + 1) pairs
    have hnamesSize := sum_zip_fst_le names values fun value => size value + 1
    rw [hzip, List.map_map] at hnamesSize
    have hfields := elementsSize_le_of_iter hnames hname hlong
    rw [elementsSize_eq] at hfields
    exact Nat.le_trans (Nat.add_le_add_left (Nat.le_trans hdict hnamesSize) 1) hfields

theorem mem_of_get? {α : Type} {entries : List (JsonText × α)} {name : JsonText} {value : α}
    (h : get? entries name = some value) : (name, value) ∈ entries := by
  obtain ⟨entry, hfind, rfl⟩ := Option.map_eq_some_iff.mp h
  have hfound := List.find?_some hfind
  have hname : entry.1 = name := of_decide_eq_true hfound
  rw [← hname]
  exact List.mem_of_find?_eq_some hfind

theorem sum_entrySize_le {chosen entries : List (JsonText × Json)}
    (distinct : (chosen.map Prod.fst).Nodup) (subset : chosen ⊆ entries) :
    (chosen.map entrySize).sum ≤ entriesSize entries := by
  obtain ⟨sub, hperm, hsub⟩ := (List.Nodup.of_map _ distinct).subperm subset
  rw [entriesSize_eq, ← (hperm.map entrySize).sum_eq]
  exact (hsub.map entrySize).sum_le_sum fun _ _ => Nat.zero_le _

end InfoServer

namespace InfoManager

open Json InfoServer

/-! ## The payload as text -/

/-- An entry of the ring whose texts are in UTF-8. -/
structure TextEntry where
  pkt : ImRingPacket
  uuid : List Char
  link : List Char
  uuid_eq : encodeUtf8 uuid = cString pkt.uuid.toList
  link_eq : encodeUtf8 link = cString pkt.link.toList

namespace TextEntry

variable (e : TextEntry)

def orientation : List Char :=
  (orientationNames.toList.getD (e.pkt.orientation.toNat % maxOrientations) "").toList

/-- The elements of its row as texts. -/
def texts : List (List Char) :=
  [strText e.orientation, strText e.uuid, strText e.link, strText (dotted e.pkt.subnet),
    strText (dotted e.pkt.mask), intText e.pkt.channel.toNat, intText e.pkt.rssi.toInt,
    intText e.pkt.rxBytes.toNat, intText e.pkt.txBytes.toNat]

/-- The elements of its row. -/
def values : List Json :=
  [.str (codes e.orientation), .str (codes e.uuid), .str (codes e.link),
    .str (codes (dotted e.pkt.subnet)), .str (codes (dotted e.pkt.mask)),
    .int e.pkt.channel.toNat, .int e.pkt.rssi.toInt, .int e.pkt.rxBytes.toNat,
    .int e.pkt.txBytes.toNat]

/-- The texts of the entry need no escape. -/
def Plain : Prop := AllPlain e.uuid ∧ AllPlain e.link

end TextEntry

/-- The names of the fields. -/
def fieldNames : List (List Char) :=
  ["orientation".toList, "uuid".toList, "link".toList, "subnet".toList, "mask".toList,
    "channel".toList, "rssi".toList, "rx_bytes".toList, "tx_bytes".toList]

/-- The entries of the payload's object. -/
def payloadEntries (entries : List TextEntry) (uptime : Int64) : List (List Char × List Char) :=
  [("fields".toList, arrText (fieldNames.map strText)),
    ("data".toList, arrText (entries.map fun e => arrText e.texts)),
    ("uptime_mins".toList, intText uptime.toInt)]

theorem ascii_intText (n : Int) : Ascii (intText n) := fun _ hc => (toNat_of_mem_intText hc).2.1

theorem ascii_dotted (addr : BitVec 32) : Ascii (dotted addr) :=
  fun _ hc => (toNat_of_mem_dotted hc).2.1

theorem ascii_orientation (e : TextEntry) : Ascii e.orientation := by
  have all : ∀ k : Fin maxOrientations,
      Ascii (orientationNames.toList.getD k.val "").toList := by decide
  exact all ⟨_, Nat.mod_lt _ (by decide)⟩

/-- The row of an entry is the text of an array. -/
theorem encodeUtf8_row (e : TextEntry) : encodeUtf8 (arrText e.texts) = row e.pkt := by
  have hstart : literal "[\"" = [0x5b, 0x22] := rfl
  have hbetween : literal "\",\"" = [0x22, 0x2c, 0x22] := rfl
  have hstop : literal "\"," = [0x22, 0x2c] := rfl
  have hcomma : literal "," = [0x2c] := rfl
  have hend : literal "]" = [0x5d] := rfl
  have hquote : ∀ t, encodeUtf8 (quote :: t) = 0x22 :: encodeUtf8 t := fun _ => rfl
  have hseparator : ∀ t, encodeUtf8 (comma :: t) = 0x2c :: encodeUtf8 t := fun _ => rfl
  have hopen : ∀ t, encodeUtf8 (openBracket :: t) = 0x5b :: encodeUtf8 t := fun _ => rfl
  have hclose : encodeUtf8 [closeBracket] = [0x5d] := rfl
  have horientation : encodeUtf8 e.orientation =
      literal (orientationNames.toList.getD (e.pkt.orientation.toNat % maxOrientations) "") :=
    encodeUtf8_ascii (ascii_orientation e)
  simp only [row, TextEntry.texts, arrText, joinComma, strText, hstart, hbetween, hstop, hcomma,
    hend, List.append_assoc, List.cons_append, List.nil_append, encodeUtf8_append, hquote,
    hseparator, hopen, hclose, horientation, e.uuid_eq, e.link_eq,
    encodeUtf8_ascii (ascii_dotted _), encodeUtf8_ascii (ascii_intText _), inetNtoaR_htonl, decimal]

theorem encodeUtf8_rows (e : TextEntry) (entries : List TextEntry) (first : Bool) :
    (if first then [] else literal ",") ++
      encodeUtf8 (joinComma ((e :: entries).map fun e => arrText e.texts)) =
    rowsText first ((e :: entries).map (·.pkt)) := by
  induction entries generalizing e first with
  | nil =>
      rw [List.map_singleton, List.map_singleton, joinComma, encodeUtf8_row, rowsText, rowsText,
        List.append_nil]
  | cons next entries ih =>
      have hcomma : ∀ t, encodeUtf8 (comma :: t) = literal "," ++ encodeUtf8 t := fun _ => rfl
      have hrest := ih next false
      rw [if_neg (by decide)] at hrest
      have hjoin : joinComma ((e :: next :: entries).map fun e => arrText e.texts) =
          arrText e.texts ++
            comma :: joinComma ((next :: entries).map fun e => arrText e.texts) := rfl
      have hunfold : rowsText first ((e :: next :: entries).map (·.pkt)) =
          (if first then [] else literal ",") ++ row e.pkt ++
            rowsText false ((next :: entries).map (·.pkt)) := rfl
      rw [hjoin, encodeUtf8_append, encodeUtf8_row, hcomma, hrest, hunfold, List.append_assoc]

/-- The texts of the object make up the payload. -/
theorem encodeUtf8_payload {e : TextEntry} {entries : List TextEntry} {ring : Ring}
    (hring : (e :: entries).map (·.pkt) = ring.toList) (uptime : Int64) :
    encodeUtf8 (objText (payloadEntries (e :: entries) uptime)) = payloadText ring uptime := by
  have hrows := encodeUtf8_rows e entries true
  rw [if_pos rfl, List.nil_append, hring] at hrows
  have hheader : encodeUtf8 (openBrace :: (entryText ("fields".toList,
      arrText (fieldNames.map strText)) ++ comma :: (strText "data".toList ++
        [colon, openBracket]))) = header := rfl
  have hname : encodeUtf8 (closeBracket :: comma :: (strText "uptime_mins".toList ++ [colon])) =
      literal "],\"uptime_mins\":" := rfl
  have hend : encodeUtf8 [closeBrace] = literal "\x7d" := rfl
  have huptime : encodeUtf8 (intText uptime.toInt) = decimal uptime.toInt :=
    encodeUtf8_ascii (ascii_intText _)
  have htext : objText (payloadEntries (e :: entries) uptime) =
      (openBrace :: (entryText ("fields".toList, arrText (fieldNames.map strText)) ++
        comma :: (strText "data".toList ++ [colon, openBracket]))) ++
      (joinComma ((e :: entries).map fun e => arrText e.texts) ++
      ((closeBracket :: comma :: (strText "uptime_mins".toList ++ [colon])) ++
        (intText uptime.toInt ++ [closeBrace]))) := by
    simp only [objText, payloadEntries, List.map_cons, List.map_nil, joinComma, entryText, arrText,
      List.append_assoc, List.cons_append, List.nil_append]
  rw [htext, encodeUtf8_append, encodeUtf8_append, encodeUtf8_append, encodeUtf8_append, hheader,
    hrows, hname, huptime, hend, payloadText, footer]
  simp only [List.append_assoc]

/-! ## Texts that need no escape -/

theorem plain_dotted (addr : BitVec 32) : AllPlain (dotted addr) :=
  fun _ hc => ⟨(toNat_of_mem_dotted hc).2.2.1, (toNat_of_mem_dotted hc).2.2.2,
    (toNat_of_mem_dotted hc).1⟩

theorem plain_orientation (e : TextEntry) : AllPlain e.orientation := by
  have all : ∀ k : Fin maxOrientations,
      AllPlain (orientationNames.toList.getD k.val "").toList := by decide
  exact all ⟨_, Nat.mod_lt _ (by decide)⟩

theorem reads_row {e : TextEntry} (plain : e.Plain) : Reads (arrText e.texts) (.arr e.values) :=
  reads_arr (reads_str (plain_orientation e))
    (.cons (reads_str plain.1) (.cons (reads_str plain.2) (.cons (reads_str (plain_dotted _))
      (.cons (reads_str (plain_dotted _)) (.cons (reads_int _) (.cons (reads_int _)
        (.cons (reads_int _) (.cons (reads_int _) .nil))))))))

/-- The names of the fields as the server reads them. -/
def fieldValues : List Json := fieldNames.map fun name => .str (codes name)

theorem reads_fields : Reads (arrText (fieldNames.map strText)) (.arr fieldValues) := by
  have plain : ∀ name ∈ fieldNames, AllPlain name := by decide
  have hall : ∀ names : List (List Char), (∀ name ∈ names, AllPlain name) →
      ReadsAll (names.map strText) (names.map fun name => .str (codes name)) := by
    intro names hnames
    induction names with
    | nil => exact .nil
    | cons name names ih =>
        exact .cons (reads_str (hnames name List.mem_cons_self))
          (ih fun n hn => hnames n (List.mem_cons_of_mem name hn))
  cases hall fieldNames plain with
  | cons first others => exact reads_arr first others

/-- The object of the payload. -/
def payloadValue (entries : List TextEntry) (uptime : Int64) : List (JsonText × Json) :=
  [(key "fields", .arr fieldValues), (key "data", .arr (entries.map fun e => .arr e.values)),
    (key "uptime_mins", .int uptime.toInt)]

theorem payloadKeys_nodup : [key "fields", key "data", key "uptime_mins"].Nodup := by decide

theorem reads_payload {e : TextEntry} {entries : List TextEntry}
    (plain : ∀ e' ∈ e :: entries, e'.Plain) (uptime : Int64) :
    Reads (objText (payloadEntries (e :: entries) uptime))
      (.obj (payloadValue (e :: entries) uptime)) := by
  have hrows : ∀ entries : List TextEntry, (∀ e ∈ entries, e.Plain) →
      ReadsAll (entries.map fun e => arrText e.texts) (entries.map fun e => .arr e.values) := by
    intro entries hplain
    induction entries with
    | nil => exact .nil
    | cons e entries ih =>
        exact .cons (reads_row (hplain e List.mem_cons_self))
          (ih fun e' he' => hplain e' (List.mem_cons_of_mem e he'))
  have hdata : Reads (arrText ((e :: entries).map fun e => arrText e.texts))
      (.arr ((e :: entries).map fun e => .arr e.values)) :=
    reads_arr (reads_row (plain e List.mem_cons_self))
      (hrows entries fun e' he' => plain e' (List.mem_cons_of_mem e he'))
  have hkeys : ((payloadValue (e :: entries) uptime).map Prod.fst).Nodup := payloadKeys_nodup
  have hname : AllPlain "fields".toList := by decide
  have hdataName : AllPlain "data".toList := by decide
  have huptimeName : AllPlain "uptime_mins".toList := by decide
  exact reads_obj ⟨hname, rfl, reads_fields⟩
    (.cons ⟨hdataName, rfl, hdata⟩ (.cons ⟨huptimeName, rfl, reads_int _⟩ .nil)) hkeys

/-! ## What the server makes of the payload -/

/-- The record of an entry, its fields in the order of their names. -/
def TextEntry.node (e : TextEntry) : Node := (fieldNames.map codes).zip e.values

theorem fieldKeys_nodup : (fieldNames.map codes).Nodup := by decide

theorem TextEntry.pkt_node (e : TextEntry) : e.pkt.node = some e.node := by
  rw [ImRingPacket.node, decodeUtf8_eq_some_iff.mpr e.uuid_eq,
    decodeUtf8_eq_some_iff.mpr e.link_eq]
  rfl

theorem node_values (e : TextEntry) : node (.arr fieldValues) (.arr e.values) = some e.node := by
  have hkeys : (e.node.map Prod.fst).Nodup := fieldKeys_nodup
  have hpairs : (fieldValues.zip e.values).mapM field = some e.node := rfl
  rw [node]
  simp only [iter, Option.bind_eq_bind, Option.bind_some, hpairs, dict_of_nodup hkeys]
  rfl

theorem mapM_map_eq_some {α β γ : Type} {f : β → Option γ} {g : α → β} {h : α → γ}
    (hf : ∀ x, f (g x) = some (h x)) (xs : List α) :
    (xs.map g).mapM f = some (xs.map h) := by
  induction xs with
  | nil => rfl
  | cons x xs ih =>
      rw [List.map_cons, List.mapM_cons, hf, ih]
      rfl

theorem result_entries {entries : List TextEntry} {ring : Ring}
    (hring : entries.map (·.pkt) = ring.toList) (uptime : Int64) :
    result ring uptime =
      some ⟨entries.map TextEntry.node, maxOrientations, some (.int uptime.toInt)⟩ := by
  rw [result, ← hring, mapM_map_eq_some TextEntry.pkt_node]
  rfl

theorem length_payloadText_le {ring : Ring}
    (terminated : ring.Terminated) (uptime : Int64) :
    (payloadText ring uptime).length ≤ 4096 := by
  have hheader : header.length = 103 := rfl
  have hrows := length_rowsText_le true terminated.toList
  have hfooter := length_footer_le uptime
  have hmax : maxOrientations = 5 := rfl
  rw [Vector.length_toList] at hrows
  rw [payloadText, List.length_append, List.length_append]
  omega

theorem receive_eq {bytes : List UInt8} {text : List Char} (hlength : bytes.length ≤ 4096)
    (htext : encodeUtf8 text = bytes) :
    receive bytes = (loads text).bind fun payload =>
      match payload with
      | .obj entries => do
          let rows ← iter ((get? entries (key "data")).getD (.arr []))
          let nodes ← rows.mapM (node ((get? entries (key "fields")).getD (.arr [])))
          return ⟨nodes, nodes.length, get? entries (key "uptime_mins")⟩
      | _ => none := by
  rw [receive, List.take_of_length_le hlength, decodeUtf8_eq_some_iff.mpr htext]
  rfl

/-- A ring whose texts need no escape arrives. -/
theorem receive_payload {e : TextEntry} {entries : List TextEntry} {ring : Ring}
    (hring : (e :: entries).map (·.pkt) = ring.toList)
    (terminated : ring.Terminated)
    (plain : ∀ e' ∈ e :: entries, e'.Plain) (uptime : Int64) :
    receive (payloadText ring uptime) = result ring uptime := by
  have hbom : (objText (payloadEntries (e :: entries) uptime)).head?.map Char.toNat ≠
      some 0xfeff := by
    have hhead : (objText (payloadEntries (e :: entries) uptime)).head?.map Char.toNat =
        some 0x7b := rfl
    rw [hhead]
    decide
  have hloads := (reads_payload plain uptime).loads hbom
  have hdata : get? (payloadValue (e :: entries) uptime) (key "data") =
      some (.arr ((e :: entries).map fun e => .arr e.values)) := rfl
  have hfields : get? (payloadValue (e :: entries) uptime) (key "fields") =
      some (.arr fieldValues) := rfl
  have huptime : get? (payloadValue (e :: entries) uptime) (key "uptime_mins") =
      some (.int uptime.toInt) := rfl
  have hcount : ((e :: entries).map TextEntry.node).length = maxOrientations := by
    have hlength := congrArg List.length hring
    rw [List.length_map, Vector.length_toList] at hlength
    rw [List.length_map, hlength]
  rw [receive_eq (length_payloadText_le terminated uptime) (encodeUtf8_payload hring uptime),
    hloads, result_entries hring]
  simp only [Option.bind_some, hdata, hfields, huptime, Option.getD_some, iter,
    Option.bind_eq_bind, mapM_map_eq_some node_values, hcount]
  rfl

/-! ## The room that the texts need -/

theorem length_row_le_size (e : TextEntry) :
    (arrText e.texts).length ≤ size (.arr e.values) := by
  have horientation := length_strText_le e.orientation
  have huuid := length_strText_le e.uuid
  have hlink := length_strText_le e.link
  have hsubnet := length_strText_le (dotted e.pkt.subnet)
  have hmask := length_strText_le (dotted e.pkt.mask)
  rw [TextEntry.texts, length_arrText]
  simp only [TextEntry.values, size, elementsSize, List.map_cons, List.map_nil, List.sum_cons,
    List.sum_nil]
  omega

theorem plain_of_size_le {e : TextEntry}
    (h : size (.arr e.values) ≤ (arrText e.texts).length) : e.Plain := by
  have horientation := length_strText_le e.orientation
  have huuid := length_strText_le e.uuid
  have hlink := length_strText_le e.link
  have hsubnet := length_strText_le (dotted e.pkt.subnet)
  have hmask := length_strText_le (dotted e.pkt.mask)
  rw [TextEntry.texts, length_arrText] at h
  simp only [TextEntry.values, size, elementsSize, List.map_cons, List.map_nil, List.sum_cons,
    List.sum_nil] at h
  exact ⟨plain_of_textSize_le (by omega), plain_of_textSize_le (by omega)⟩

/-- A row that gives the record of an entry is an array, with the room that its values need; the
names of the fields have the room that they need. -/
theorem size_of_row {fields row : Json} {e : TextEntry} (h : node fields row = some e.node) :
    (∃ values, row = .arr values) ∧ size (.arr e.values) ≤ size row ∧
      size (.arr fieldValues) ≤ size fields := by
  have hnumber : (key "channel", .int e.pkt.channel.toNat) ∈ e.node := by
    refine List.mem_of_getElem? (i := 5) rfl
  have hvalues : elementsSize e.values = (e.node.map fun entry => size entry.2 + 1).sum := by
    rw [elementsSize_eq]
    rfl
  have hnames : elementsSize fieldValues =
      (e.node.map fun entry => textSize entry.1 + 1).sum := by
    rw [elementsSize_eq]
    rfl
  obtain ⟨hrow, hsize, hfields⟩ := size_of_node h hnumber (by decide)
  exact ⟨hrow, by rwa [size, hvalues], by rwa [size, hnames]⟩

/-- What the server has read where it has made the records of the ring has the room that the rows,
the names of the fields and the uptime need. -/
theorem size_of_nodes {es : List (JsonText × Json)} {e : TextEntry} {entries : List TextEntry}
    {uptime : Int64} {rows : List Json}
    (hrows : iter ((get? es (key "data")).getD (.arr [])) = some rows)
    (hnodes : rows.mapM (node ((get? es (key "fields")).getD (.arr []))) =
      some ((e :: entries).map TextEntry.node))
    (huptime : get? es (key "uptime_mins") = some (.int uptime.toInt)) :
    entriesSize (payloadValue (e :: entries) uptime) ≤ entriesSize es := by
  have hrelated := List.forall₂_map_right_iff.mp (forall₂_of_mapM hnodes)
  obtain ⟨first, others, hfirst, -, rfl⟩ := List.forall₂_cons_right_iff.mp hrelated
  obtain ⟨⟨values, hvalues⟩, -, hfieldsSize⟩ := size_of_row hfirst
  -- a row is an array, so that the rows are no characters of a string
  have hdata : get? es (key "data") = some (.arr (first :: others)) := by
    rcases iter_cases hrows with hdata | hstrings
    · cases hget : get? es (key "data") with
      | none =>
          rw [hget] at hdata
          cases hdata
      | some value =>
          rw [hget] at hdata
          exact congrArg some hdata
    · obtain ⟨s, hs⟩ := hstrings first List.mem_cons_self
      rw [hvalues] at hs
      cases hs
  have hfields : ∃ fields, get? es (key "fields") = some fields ∧
      size (.arr fieldValues) ≤ size fields := by
    cases hget : get? es (key "fields") with
    | none =>
        rw [hget] at hfieldsSize
        exact absurd hfieldsSize (by decide)
    | some fields =>
        rw [hget] at hfieldsSize
        exact ⟨fields, rfl, hfieldsSize⟩
  have hdataSize : size (.arr ((e :: entries).map fun e => .arr e.values)) ≤
      size (.arr (first :: others)) := by
    have hsizes : List.Forall₂ (· ≤ ·)
        (((e :: entries).map fun e => Json.arr e.values).map fun row => size row + 1)
        ((first :: others).map fun row => size row + 1) := by
      rw [List.map_map, List.forall₂_map_left_iff, List.forall₂_map_right_iff]
      exact (hrelated.imp fun _ _ h => Nat.succ_le_succ (size_of_row h).2.1).flip
    rw [size, size, elementsSize_eq, elementsSize_eq]
    exact Nat.add_le_add_left hsizes.sum_le_sum 1
  obtain ⟨fields, hfields, hfieldsSize⟩ := hfields
  let chosen : List (JsonText × Json) := [(key "fields", fields),
    (key "data", .arr (first :: others)), (key "uptime_mins", .int uptime.toInt)]
  have hsubset : chosen ⊆ es := by
    intro entry hentry
    simp only [chosen, List.mem_cons, List.not_mem_nil, or_false] at hentry
    rcases hentry with rfl | rfl | rfl
    · exact mem_of_get? hfields
    · exact mem_of_get? hdata
    · exact mem_of_get? huptime
  have hsum : (chosen.map entrySize).sum ≤ entriesSize es :=
    sum_entrySize_le payloadKeys_nodup hsubset
  rw [List.map_cons] at hdataSize
  refine Nat.le_trans ?_ hsum
  simp only [payloadValue, chosen, entriesSize, entrySize, List.map_cons, List.map_nil,
    List.sum_cons, List.sum_nil]
  omega

/-- Where the payload has the room for its value, the rows have it for theirs. -/
theorem sum_size_le_of_payload {e : TextEntry} {entries : List TextEntry} {uptime : Int64}
    (h : 1 + entriesSize (payloadValue (e :: entries) uptime) ≤
      (objText (payloadEntries (e :: entries) uptime)).length) :
    ((e :: entries).map fun e => size (.arr e.values) + 1).sum ≤
      ((e :: entries).map fun e => (arrText e.texts).length + 1).sum := by
  have hfields : size (.arr fieldValues) = (arrText (fieldNames.map strText)).length := by decide
  have hnames : textSize (key "fields") = 8 ∧ textSize (key "data") = 6 ∧
      textSize (key "uptime_mins") = 13 := by decide
  have hlengths : "fields".toList.length = 6 ∧ "data".toList.length = 4 ∧
      "uptime_mins".toList.length = 11 := by decide
  have huptime : size (.int uptime.toInt) = (intText uptime.toInt).length := rfl
  have hdata : (arrText ((e :: entries).map fun e => arrText e.texts)).length =
      1 + ((e :: entries).map fun e => (arrText e.texts).length + 1).sum := by
    rw [List.map_cons, length_arrText, List.map_cons, List.map_cons, List.map_map]
    rfl
  have hrows : size (.arr ((e :: entries).map fun e => .arr e.values)) =
      1 + ((e :: entries).map fun e => size (.arr e.values) + 1).sum := by
    rw [size, elementsSize_eq, List.map_map]
    rfl
  rw [payloadEntries, length_objText] at h
  simp only [payloadValue, entriesSize, length_entryText, hfields, huptime, hnames, hlengths,
    List.map_cons, List.map_nil, List.sum_cons, List.sum_nil] at h hdata hrows ⊢
  omega

/-- A ring that arrives needs no escape: the values that the server has read fill the payload as
far as their texts do. -/
theorem plain_of_receive {e : TextEntry} {entries : List TextEntry} {ring : Ring}
    (hring : (e :: entries).map (·.pkt) = ring.toList)
    (terminated : ring.Terminated) {uptime : Int64}
    (h : receive (payloadText ring uptime) = result ring uptime) :
    ∀ e' ∈ e :: entries, e'.Plain := by
  rw [receive_eq (length_payloadText_le terminated uptime) (encodeUtf8_payload hring uptime),
    result_entries hring] at h
  obtain ⟨payload, hloads, h⟩ := Option.bind_eq_some_iff.mp h
  have hlength := size_le_of_loads hloads
  cases payload with
  | obj es =>
      obtain ⟨rows, hrows, h⟩ := Option.bind_eq_some_iff.mp h
      obtain ⟨nodes, hnodes, h⟩ := Option.bind_eq_some_iff.mp h
      simp only [Option.pure_def, Option.some.injEq, Result.mk.injEq] at h
      obtain ⟨rfl, -, huptime⟩ := h
      have hsize := size_of_nodes hrows hnodes huptime
      have hroom : 1 + entriesSize (payloadValue (e :: entries) uptime) ≤
          (objText (payloadEntries (e :: entries) uptime)).length :=
        Nat.le_trans (Nat.add_le_add_left hsize 1) hlength
      have hsum := sum_size_le_of_payload hroom
      intro e' he'
      by_contra hplain
      have hless : (arrText e'.texts).length + 1 < size (.arr e'.values) + 1 :=
        Nat.succ_lt_succ (Nat.lt_of_not_le fun hle => hplain (plain_of_size_le hle))
      exact absurd hsum (Nat.not_le_of_lt (List.sum_lt_sum _ _
        (fun e'' _ => Nat.succ_le_succ (length_row_le_size e'')) ⟨e', he', hless⟩))
  | _ => cases h

/-! ## The round trip -/

theorem TextEntry.plainTexts_iff (e : TextEntry) : e.pkt.PlainTexts ↔ e.Plain := by
  have hplain : ∀ {text : List Char} {bytes : List UInt8}, encodeUtf8 text = bytes →
      (PlainText bytes ↔ AllPlain text) := by
    intro text bytes htext
    constructor
    · rintro ⟨text', htext', hplain⟩
      rwa [encodeUtf8_injective (htext.trans (decodeUtf8_eq_some_iff.mp htext').symm)]
    · exact fun hplain => ⟨text, decodeUtf8_eq_some_iff.mpr htext, hplain⟩
  exact and_congr (hplain e.uuid_eq) (hplain e.link_eq)

theorem exists_entry_of_node {pkt : ImRingPacket} {record : Node} (h : pkt.node = some record) :
    ∃ e : TextEntry, e.pkt = pkt := by
  obtain ⟨uuid, huuid, h⟩ := Option.bind_eq_some_iff.mp h
  obtain ⟨link, hlink, -⟩ := Option.bind_eq_some_iff.mp h
  exact ⟨⟨pkt, uuid, link, decodeUtf8_eq_some_iff.mp huuid, decodeUtf8_eq_some_iff.mp hlink⟩, rfl⟩

theorem exists_entry_of_plainTexts {pkt : ImRingPacket} (h : pkt.PlainTexts) :
    ∃ e : TextEntry, e.pkt = pkt := by
  obtain ⟨⟨uuid, huuid, -⟩, link, hlink, -⟩ := h
  exact ⟨⟨pkt, uuid, link, decodeUtf8_eq_some_iff.mp huuid, decodeUtf8_eq_some_iff.mp hlink⟩, rfl⟩

theorem exists_entries {ring : Ring}
    (h : ∀ pkt ∈ ring.toList, ∃ e : TextEntry, e.pkt = pkt) :
    ∃ e entries, ((e : TextEntry) :: entries).map (·.pkt) = ring.toList := by
  have hrange : ring.toList ∈ Set.range (List.map TextEntry.pkt) := by
    rw [Set.range_list_map]
    exact h
  obtain ⟨entries, hentries⟩ := hrange
  cases entries with
  | nil =>
      have hlength := congrArg List.length hentries
      rw [Vector.length_toList] at hlength
      cases hlength
  | cons e entries => exact ⟨e, entries, hentries⟩

theorem mem_of_result {ring : Ring} {uptime : Int64} {r : Result}
    (h : result ring uptime = some r) :
    ∀ pkt ∈ ring.toList, ∃ e : TextEntry, e.pkt = pkt := by
  obtain ⟨nodes, hnodes, -⟩ := Option.bind_eq_some_iff.mp h
  have hentries : List.Forall₂ (fun pkt record => (∃ e : TextEntry, e.pkt = pkt) ∧
      ImRingPacket.node pkt = some record) ring.toList nodes :=
    (forall₂_of_mapM hnodes).imp fun _ _ hrecord => ⟨exists_entry_of_node hrecord, hrecord⟩
  exact ((List.forall₂_and_left _ _).mp hentries).1

theorem plainTexts_of_roundTrip {buffer : Vector UInt8 maxPayloadBuffer} {ring : Ring}
    (terminated : ring.Terminated) {uptime : Int64}
    (h : RoundTrip buffer ring uptime) : ring.PlainTexts := by
  obtain ⟨payload, hpayload, -, r, hresult, hreceive⟩ := h
  obtain ⟨written, hwritten, -, hsent⟩ := imClientTask_written buffer terminated uptime
  obtain rfl : written = payload := by
    rw [hwritten] at hpayload
    cases hpayload
    rfl
  obtain ⟨e, entries, hring⟩ := exists_entries (mem_of_result hresult)
  rw [hsent, ← hresult] at hreceive
  have hplain := plain_of_receive hring terminated hreceive
  intro pkt hpkt
  rw [← Vector.mem_toList_iff, ← hring] at hpkt
  obtain ⟨e', he', rfl⟩ := List.mem_map.mp hpkt
  exact e'.plainTexts_iff.mpr (hplain e' he')

theorem roundTrip_of_plainTexts (buffer : Vector UInt8 maxPayloadBuffer) {ring : Ring}
    (terminated : ring.Terminated) (uptime : Int64)
    (h : ring.PlainTexts) : RoundTrip buffer ring uptime := by
  have hmem : ∀ pkt ∈ ring.toList, pkt.PlainTexts :=
    fun pkt hpkt => h pkt (Vector.mem_toList_iff.mp hpkt)
  obtain ⟨e, entries, hring⟩ :=
    exists_entries fun pkt hpkt => exists_entry_of_plainTexts (hmem pkt hpkt)
  have hplain : ∀ e' ∈ e :: entries, e'.Plain := by
    intro e' he'
    have hpkt : e'.pkt ∈ ring.toList := by
      rw [← hring]
      exact List.mem_map_of_mem he'
    exact e'.plainTexts_iff.mp (hmem _ hpkt)
  obtain ⟨payload, hpayload, hwhole, hsent⟩ := imClientTask_written buffer terminated uptime
  refine ⟨payload, hpayload, hwhole, _, result_entries hring uptime, ?_⟩
  rw [hsent, receive_payload hring terminated hplain, result_entries hring]

theorem plainText_ascii {text : List Char} (hascii : Ascii text) (hplain : AllPlain text) :
    PlainText (ascii text) :=
  ⟨text, decodeUtf8_eq_some_iff.mpr (encodeUtf8_ascii hascii), hplain⟩

/-- A board that is connected to the access point of the name. -/
def linked (linkName : String) : DeviceInfo where
  orientation := ⟨0, maxOrientations_pos⟩
  channel := 6
  subnet := 0x0a000100
  mask := 0xffffff00
  rssi := -61
  rxCount := 4096
  txCount := 512
  mac := literal "240ac4000001"
  linkName := literal linkName

/-- The ring of a node whose only broadcast so far comes from the board. -/
def ringOf (info : DeviceInfo) : Ring :=
  imInit.set info.orientation.val info.packet info.orientation.isLt

theorem ringOf_terminated (info : DeviceInfo) : (ringOf info).Terminated :=
  (Ring.Written.own .imInit (imBroadcastInfo_packet imInit info)).terminated

/-- The server prints what the ring holds exactly where no text in it needs an escape. -/
theorem roundTrip_iff (buffer : Vector UInt8 maxPayloadBuffer) {ring : Ring}
    (terminated : ring.Terminated) (uptime : Int64) :
    RoundTrip buffer ring uptime ↔ ring.PlainTexts :=
  ⟨plainTexts_of_roundTrip terminated, roundTrip_of_plainTexts buffer terminated uptime⟩

/-- A name of letters and digits arrives. -/
theorem roundTrip_linked :
    RoundTrip (Vector.replicate maxPayloadBuffer 0) (ringOf (linked "I4A_N_1")) 90 := by
  refine (roundTrip_iff _ (ringOf_terminated _) 90).mpr fun pkt hpkt => ?_
  rcases Vector.mem_or_eq_of_mem_set hpkt with hold | rfl
  · rw [Vector.eq_of_mem_replicate hold]
    have hempty : PlainText [] := ⟨[], rfl, fun _ hc => absurd hc List.not_mem_nil⟩
    exact ⟨hempty, hempty⟩
  · have huuid : cString (linked "I4A_N_1").packet.uuid.toList = ascii "240ac4000001".toList := by
      decide
    have hlink : cString (linked "I4A_N_1").packet.link.toList = ascii "I4A_N_1".toList := by
      decide
    rw [ImRingPacket.PlainTexts, huuid, hlink]
    exact ⟨plainText_ascii (by decide) (by decide), plainText_ascii (by decide) (by decide)⟩

/-- A quote in the name of an access point ends the string too early. -/
theorem roundTrip_fails_quote :
    (ringOf (linked "I4A_N_\"")).Terminated ∧
      ¬ RoundTrip (Vector.replicate maxPayloadBuffer 0) (ringOf (linked "I4A_N_\"")) 90 := by
  refine ⟨ringOf_terminated _, fun h => ?_⟩
  obtain ⟨-, text, htext, hplain⟩ :=
    plainTexts_of_roundTrip (ringOf_terminated _) h _ (Vector.mem_set _)
  have hlink : cString (linked "I4A_N_\"").packet.link.toList =
      encodeUtf8 "I4A_N_\"".toList := by decide
  rw [hlink, decodeUtf8_encodeUtf8] at htext
  rw [← Option.some.inj htext] at hplain
  have hquote : ¬ AllPlain "I4A_N_\"".toList := by decide
  exact hquote hplain

end InfoManager

end I4A
