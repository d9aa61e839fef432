import Mathlib.Data.List.Infix
import ShapeMerge.Binary.Bytes
import ShapeMerge.NameMap.Lemmas

namespace ShapeMerge.Binary

/-!
Two properties of decoders that are kept when decoders are put together.  A
steady decoder does not look at what it leaves; one that restores a value from
some bytes takes all of them and no more.  A steady decoder that restores a
value from some bytes refuses every strict prefix of them.
-/

def Steady (decode : Decoder α) : Prop :=
  ∀ bytes more value rest, decode bytes = some (value, rest) →
    decode (bytes ++ more) = some (value, rest ++ more)

def Restores (decode : Decoder α) (bytes : List UInt8) (value : α) : Prop :=
  ∀ rest, decode (bytes ++ rest) = some (value, rest)

theorem Restores.refuses {decode : Decoder α} {bytes front : List UInt8}
    {value : α} (h : Restores decode bytes value) (hsteady : Steady decode)
    (hstart : front.IsPrefix bytes) (hstrict : front ≠ bytes) :
    decode front = none := by
  obtain ⟨tail, rfl⟩ := hstart
  cases hdecode : decode front with
  | none => rfl
  | some result =>
      obtain ⟨other, rest⟩ := result
      have hall := h []
      rw [List.append_nil, hsteady front tail other rest hdecode] at hall
      have hempty : rest ++ tail = [] :=
        congrArg Prod.snd (Option.some.inj hall)
      rw [(List.append_eq_nil_iff.mp hempty).2, List.append_nil] at hstrict
      exact absurd rfl hstrict

theorem Restores.unique {decode : Decoder α}
    {left right s t : List UInt8} {x y : α} (hleft : Restores decode left x)
    (hright : Restores decode right y) (h : left ++ s = right ++ t) :
    x = y ∧ s = t := by
  have hsame := hright t
  rw [← h, hleft s] at hsame
  cases hsame
  exact ⟨rfl, rfl⟩

section Sequencing

def done (value : α) : Decoder α := fun bytes => some (value, bytes)

def followed (first : Decoder α) (next : α → Decoder β) : Decoder β :=
  fun bytes => (first bytes).bind fun result => next result.1 result.2

theorem steady_done (value : α) : Steady (done value) := by
  intro bytes more other rest h
  cases h
  rfl

theorem restores_done (value : α) : Restores (done value) [] value :=
  fun _ => rfl

theorem Steady.followed {first : Decoder α} {next : α → Decoder β}
    (hfirst : Steady first) (hnext : ∀ value, Steady (next value)) :
    Steady (followed first next) := by
  intro bytes more value rest h
  obtain ⟨⟨middle, behind⟩, hmiddle, hvalue⟩ := Option.bind_eq_some_iff.mp h
  exact Option.bind_eq_some_iff.mpr ⟨_, hfirst bytes more middle behind hmiddle,
    hnext middle behind more value rest hvalue⟩

theorem Restores.followed {first : Decoder α}
    {next : α → Decoder β} {front back : List UInt8}
    {middle : α} {value : β} (hfirst : Restores first front middle)
    (hnext : Restores (next middle) back value) :
    Restores (followed first next) (front ++ back) value := by
  intro rest
  rw [List.append_assoc]
  exact Option.bind_eq_some_iff.mpr ⟨_, hfirst (back ++ rest), hnext rest⟩

theorem Restores.followed_done {first : Decoder α} {bytes : List UInt8}
    {middle : α} (h : Restores first bytes middle) (finish : α → β) :
    Restores (Binary.followed first fun value => done (finish value)) bytes
      (finish middle) := by
  have hdone : Restores (Binary.followed first fun value => done (finish value))
      (bytes ++ []) (finish middle) :=
    h.followed (restores_done (finish middle))
  rwa [List.append_nil] at hdone

theorem pair?_eq (first : Decoder α) (second : Decoder β) :
    pair? first second = followed first fun left => followed second fun right =>
      done (left, right) := rfl

theorem map?_eq (convert : α → β) (decode : Decoder α) :
    map? convert decode =
      followed decode fun value => done (convert value) := by
  funext bytes
  rw [map?, Option.map_eq_bind]
  rfl

theorem Steady.pair? {first : Decoder α} {second : Decoder β}
    (hfirst : Steady first) (hsecond : Steady second) :
    Steady (pair? first second) := by
  rw [pair?_eq]
  exact hfirst.followed fun left =>
    hsecond.followed fun right => steady_done (left, right)

theorem Restores.pair? {first : Decoder α} {second : Decoder β}
    {front back : List UInt8} {x : α} {y : β} (hfirst : Restores first front x)
    (hsecond : Restores second back y) :
    Restores (pair? first second) (front ++ back) (x, y) := by
  rw [pair?_eq]
  exact hfirst.followed (hsecond.followed_done (x, ·))

theorem Steady.map? {decode : Decoder α} (h : Steady decode) (convert : α → β) :
    Steady (map? convert decode) := by
  rw [map?_eq]
  exact h.followed fun value => steady_done (convert value)

theorem Restores.map? {decode : Decoder α} {bytes : List UInt8} {value : α}
    (h : Restores decode bytes value) (convert : α → β) :
    Restores (map? convert decode) bytes (convert value) := by
  rw [map?_eq]
  exact h.followed_done convert

end Sequencing

section Scalars

def room (width : Nat) : Nat := Nat.pow 256 width

theorem room_succ (width : Nat) : room (width + 1) = 256 * room width :=
  Nat.mul_comm (room width) 256

theorem nat?_succ (width : Nat) (byte : UInt8) (bytes : List UInt8) :
    nat? (width + 1) (byte :: bytes) = followed (nat? width)
        (fun high => done (high * 256 + byte.toNat)) bytes := rfl

theorem steady_nat? (width : Nat) : Steady (nat? width) := by
  induction width with
  | zero => exact steady_done 0
  | succ width ih =>
      intro bytes more value rest h
      cases bytes with
      | nil => cases h
      | cons byte bytes =>
          have hsteady :=
            ih.followed fun high => steady_done (high * 256 + byte.toNat)
          exact hsteady bytes more value rest h

theorem restores_nat? {width number : Nat} (h : number < room width) :
    Restores (nat? width) (ofNat width number) number := by
  induction width generalizing number with
  | zero =>
      obtain rfl : number = 0 := Nat.lt_one_iff.mp h
      exact restores_done 0
  | succ width ih =>
      have hhigh : number / 256 < room width := by
        rw [room_succ] at h
        exact Nat.div_lt_of_lt_mul h
      have hnumber :
          number / 256 * 256 + (UInt8.ofNat number).toNat = number := by
        rw [UInt8.toNat_ofNat']
        omega
      intro rest
      rw [ofNat, List.cons_append, nat?_succ]
      have hall := (ih hhigh).followed_done
        (fun high => high * 256 + (UInt8.ofNat number).toNat) rest
      rwa [hnumber] at hall

theorem steady_bool? : Steady bool? := by
  intro bytes more value rest h
  unfold bool? at h ⊢
  split at h <;> cases h <;> rfl

theorem restores_bool? (value : Bool) :
    Restores bool? (ofBool value) value := by
  cases value <;> exact fun _ => rfl

theorem constant?_eq (all : List α) :
    constant? all = followed (nat? short) fun number bytes =>
      all[number]?.bind fun value => some (value, bytes) := rfl

theorem steady_constant? (all : List α) : Steady (constant? all) := by
  rw [constant?_eq]
  refine (steady_nat? short).followed fun number bytes more value rest h => ?_
  obtain ⟨found, hfound, heq⟩ := Option.bind_eq_some_iff.mp h
  cases heq
  exact Option.bind_eq_some_iff.mpr ⟨value, hfound, rfl⟩

theorem restores_constant? {all : List α} {number : Nat} {value : α}
    (h : all[number]? = some value) (hnumber : number < room short) :
    Restores (constant? all) (ofNat short number) value := by
  intro rest
  rw [constant?_eq, followed, restores_nat? hnumber rest, Option.bind_some, h,
    Option.bind_some]

theorem option?_eq (decode : Decoder α) :
    option? decode = followed bool? fun present =>
      if present then followed decode fun value => done (some value)
      else done none := by
  funext bytes
  rw [option?, followed]
  cases bool? bytes with
  | none => rfl
  | some result => cases result with | mk present rest => cases present <;> rfl

theorem Steady.option? {decode : Decoder α} (h : Steady decode) :
    Steady (option? decode) := by
  rw [option?_eq]
  refine steady_bool?.followed fun present => ?_
  cases present with
  | false => exact steady_done none
  | true => exact h.followed fun value => steady_done (some value)

theorem Restores.option? {decode : Decoder α} {encode : α → List UInt8}
    {value : Option α} (h : ∀ content, value = some content →
      Restores decode (encode content) content) :
    Restores (option? decode) (ofOption encode value) value := by
  cases value with
  | none => exact fun _ => rfl
  | some content =>
      rw [option?_eq]
      exact (restores_bool? true).followed ((h content rfl).followed_done some)

end Scalars

section Sequences

theorem repeated?_succ (decode : Decoder α) (count : Nat) :
    repeated? decode (count + 1) = followed decode fun value =>
      followed (repeated? decode count) fun values => done (value :: values) :=
        rfl

theorem Steady.repeated? {decode : Decoder α} (h : Steady decode)
    (count : Nat) : Steady (repeated? decode count) := by
  induction count with
  | zero => exact steady_done []
  | succ count ih =>
      rw [repeated?_succ]
      exact h.followed fun value =>
        ih.followed fun values => steady_done (value :: values)

theorem restores_repeated? {decode : Decoder α}
    {encode : α → List UInt8} {values : List α}
    (h : ∀ value ∈ values, Restores decode (encode value) value) :
    Restores (repeated? decode values.length) (values.flatMap encode)
      values := by
  induction values with
  | nil => exact restores_done []
  | cons value values ih =>
      obtain ⟨hvalue, hvalues⟩ := List.forall_mem_cons.mp h
      rw [List.length_cons, repeated?_succ]
      exact hvalue.followed ((ih hvalues).followed_done (value :: ·))

theorem list?_eq (decode : Decoder α) :
    list? decode = followed (nat? long) (repeated? decode) := rfl

theorem Steady.list? {decode : Decoder α} (h : Steady decode) :
    Steady (list? decode) := by
  rw [list?_eq]
  exact (steady_nat? long).followed h.repeated?

theorem restores_list? {decode : Decoder α} {encode : α → List UInt8}
    {values : List α} (hlength : values.length < room long)
    (h : ∀ value ∈ values, Restores decode (encode value) value) :
    Restores (list? decode) (ofList encode values) values := by
  rw [list?_eq]
  exact (restores_nat? hlength).followed (restores_repeated? h)

end Sequences

section Texts

theorem toList_loop (bytes : ByteArray) (position : Nat) (done : List UInt8) :
    ByteArray.toList.loop bytes position done =
      done.reverse ++ bytes.data.toList.drop position := by
  rw [ByteArray.toList.loop]
  split
  · rename_i hlt
    have hbyte : bytes.data.toList.drop position =
        bytes.get! position :: bytes.data.toList.drop (position + 1) := by
      rw [List.drop_eq_getElem_cons (by simpa using hlt)]
      congr 1
      exact (getElem!_pos bytes.data position hlt).symm
    rw [toList_loop bytes (position + 1), hbyte, List.reverse_cons,
      List.append_assoc]
    rfl
  · rename_i hle
    rw [List.drop_eq_nil_of_le (by simpa using hle), List.append_nil]
termination_by bytes.size - position

theorem toList_eq_data (bytes : ByteArray) : bytes.toList = bytes.data.toList :=
  toList_loop bytes 0 []

theorem length_toUTF8 (text : String) :
    text.toUTF8.toList.length = text.utf8ByteSize := by
  rw [toList_eq_data]
  rfl

theorem fromUTF8?_toUTF8 (text : String) :
    String.fromUTF8? ⟨text.toUTF8.toList.toArray⟩ = some text := by
  rw [toList_eq_data, Array.toArray_toList]
  exact dif_pos text.isValidUTF8

def textBytes? (length : Nat) : Decoder String := fun bytes =>
  if bytes.length < length then none
  else (String.fromUTF8? ⟨(bytes.take length).toArray⟩).map
      (·, bytes.drop length)

theorem text?_eq : text? = followed (nat? long) textBytes? := by
  funext bytes
  rw [text?, followed]
  cases nat? long bytes with
  | none => rfl
  | some result =>
      obtain ⟨length, rest⟩ := result
      simp only [Option.bind_eq_bind, Option.bind_some, textBytes?,
        Option.map_eq_bind]
      rfl

theorem steady_text? : Steady text? := by
  rw [text?_eq]
  refine (steady_nat? long).followed fun length bytes more value rest h => ?_
  unfold textBytes? at h ⊢
  split at h
  · cases h
  · rename_i henough
    obtain ⟨text, htext, heq⟩ := Option.map_eq_some_iff.mp h
    cases heq
    have hle := Nat.not_lt.mp henough
    rw [if_neg (by simp only [List.length_append]; omega),
      List.take_append_of_le_length hle,
      List.drop_append_of_le_length hle, htext, Option.map_some]

theorem restores_text? {text : String} (h : text.utf8ByteSize < room long) :
    Restores text? (ofText text) text := by
  rw [text?_eq]
  refine (restores_nat? (by rwa [length_toUTF8])).followed fun rest => ?_
  rw [textBytes?, if_neg (by simp), List.take_left, List.drop_left,
    fromUTF8?_toUTF8, Option.map_some]

end Texts

section NameMaps

theorem Steady.nameMap? {decode : Decoder α} (h : Steady decode) :
    Steady (nameMap? decode) :=
  (steady_text?.pair? h).list?.map? NameMap.ofList

theorem restores_nameMap? {decode : Decoder α} {encode : α → List UInt8}
    {map : NameMap α} (hsize : map.size < room long)
    (hnames : ∀ name ∈ map.names, name.utf8ByteSize < room long)
    (h : ∀ value ∈ map.values, Restores decode (encode value) value) :
    Restores (nameMap? decode) (ofNameMap encode map) map := by
  have hentries : Restores (list? (pair? text? decode)) (ofNameMap encode map)
      map.entries :=
    restores_list? hsize fun entry hentry =>
      (restores_text? (hnames entry.1 (List.mem_map_of_mem hentry))).pair?
        (h entry.2 (List.mem_map_of_mem hentry))
  have hall := hentries.map? NameMap.ofList
  rwa [NameMap.ofList_entries] at hall

end NameMaps

end ShapeMerge.Binary
