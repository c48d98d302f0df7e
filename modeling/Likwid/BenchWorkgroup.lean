import Likwid.Access
import Likwid.BenchTypes
import Likwid.CpuString
import Mathlib.Data.List.Perm.Subperm
import Mathlib.Data.List.Nodup

/-!
# Reading a workgroup of the benchmark (`strUtil.c`)

A workgroup is a domain, a size and the CPUs of an expression, and it may have a list of
streams. What `parse_streams` returns is dropped, its test of the stream index never fails, a
list that is too short is printed only, and the number of CPUs found is not looked at. So a
string is rejected for its fields, its number of threads and its size, and every other one is
accepted, well-formed or not (`acceptsWellFormed_iff`).
-/

namespace Likwid

/-! ## `strUtil.c` -/

/-- `strtoul`, stored in an `int`: a number that is too large is read as `ULONG_MAX`. -/
def str2int (str : List Char) : Int :=
  match Scan.readInt (str.dropWhile Scan.isSpace) with
  | none => -einval
  | some (val, _) => if 2 ^ 64 ≤ val.natAbs then -1 else toInt32 val

/-- The factor of a unit -/
def unitFactor (unit : List Char) : ℕ :=
  if unit = ['k', 'B'] ∨ unit = ['K', 'B'] then 1000
  else if unit = ['M', 'B'] then 1000000
  else if unit = ['G', 'B'] then 1000000000
  else if unit = ['B'] then 1
  else 0

/-- The unit is the last two characters. -/
def bstrToDoubleSize (str : List Char) (type : DataType) : ℕ :=
  let unit := str.drop (str.length - 2)
  let sizeStr := str.take (str.length - 2)
  if sizeStr = [] then 0
  else if str2int sizeStr < 0 then 0
  else (str2int sizeStr).toNat * unitFactor unit / type.bytes

/-- `E:%s:%s`, … -/
def cpuExpression (fields : List (List Char)) : List Char := [':'].intercalate (['E'] :: fields)

/-- `numThreads` and `cpustr`, if the number of fields is right -/
def workgroupCpus (topo : CpuTopology) (tokens : List (List Char)) : Option (Int × List Char) :=
  match tokens with
  | [domain, _] =>
      let numThreads := toInt32 topo.activeHWThreads.toNat
      some (numThreads, cpuExpression [domain, Text.integer numThreads])
  | [domain, _, count] =>
      if str2int count < 0 then none
      else some (str2int count, cpuExpression [domain, count])
  | [domain, _, count, chunk, stride] =>
      if str2int count < 0 then none
      else some (str2int count, cpuExpression [domain, count, chunk, stride])
  | _ => none

/-- The group, without its streams, or `NULL`; `malloc` fails for a negative size only. -/
def parseWorkgroup (topo : CpuTopology) (aff : List AffinityDomain) (type : DataType)
    (tokens : List (List Char)) : Except Prog.Halt (Option Workgroup) :=
  match workgroupCpus topo tokens with
  | none => .ok none
  | some (numThreads, cpustr) =>
      let size := bstrToDoubleSize (tokens.getD 1 []) type
      if size = 0 then .ok none
      else if numThreads < 0 then .ok none
      else do
        let cpulist ← cpustrToCpulist topo aff cpustr numThreads.toNat
        .ok (some
          { numberOfThreads := numThreads.toNat
            processorIds :=
              cpulist ++ List.replicate (numThreads.toNat - cpulist.length) none
            size := size
            streams := [] })

/-- `group->streams[index]` -/
def writeStream (index : Int) (f : Stream → Stream) : Prog Unit (List Stream) Unit := do
  let streams ← Prog.get
  if 0 ≤ index ∧ index < streams.length then
    Prog.modify fun streams => streams.modify index.toNat f
  else Prog.halt .outOfBounds

/-- `free(group->streams)` and `return -1`: no entry is left. -/
def freeStreams : Prog Unit (List Stream) Unit := do
  Prog.modify fun _ => []
  Prog.ret ()

/-- One round of the loop of `parse_streams` -/
def parseStream (numberOfStreams : ℕ) (token : List Char) : Prog Unit (List Stream) Unit :=
  match token.splitOn ':' with
  | first :: domain :: rest => do
      let index := str2int first
      Prog.when (index < 0 ∧ (numberOfStreams : Int) ≤ index) freeStreams
      writeStream index fun stream => { stream with domain := some domain, offset := some 0 }
      match rest with
      | [offset] => do
          writeStream index fun stream => { stream with offset := some (str2int offset) }
          Prog.when (str2int offset < 0) freeStreams
      | _ => pure ()
  | _ => freeStreams

/-- `parse_streams`: an entry behind the last token is not initialised. -/
def parseStreams (numberOfStreams : ℕ) (tokens : List (List Char)) :
    Prog Unit (List Stream) Unit := do
  Prog.modify fun _ => List.replicate numberOfStreams ⟨none, none, 0⟩
  Prog.forRange numberOfStreams
    (fun _ i => do
      let token ← Prog.orUndefined tokens[i]?
      parseStream numberOfStreams token) ()

/-- The streams that `parse_streams` leaves, whatever it returns -/
def streamsLeft (m : Prog Unit (List Stream) Unit) : Except Prog.Halt (List Stream) :=
  match m [] with
  | .done _ streams => .ok streams
  | .ret _ streams => .ok streams
  | .halt h => .error h

/-- `group->size /= numberOfStreams` and `return 0`: a division by 0 has no meaning. -/
def finishGroup (numberOfStreams : ℕ) (group : Workgroup) (streams : List Stream) :
    Except Prog.Halt (Option Workgroup) :=
  if numberOfStreams = 0 then .error .undefined
  else .ok (some { group with size := group.size / numberOfStreams, streams := streams })

/-- `bstr_to_workgroup`: the group if 0 is returned -/
def bstrToWorkgroup (topo : CpuTopology) (aff : List AffinityDomain) (type : DataType)
    (str : List Char) (numberOfStreams : ℕ) : Except Prog.Halt (Option Workgroup) :=
  match str.splitOn '-' with
  | [groupstr, list] => do
      match ← parseWorkgroup topo aff type (groupstr.splitOn ':') with
      | none => .ok none
      | some group => do
          let streams ← streamsLeft (parseStreams numberOfStreams (list.splitOn ','))
          finishGroup numberOfStreams group streams
  | [groupstr] => do
      match ← parseWorkgroup topo aff type (groupstr.splitOn ':') with
      | none => .ok none
      | some group =>
          let domain := (groupstr.splitOn ':').headD []
          finishGroup numberOfStreams group
            (List.replicate numberOfStreams ⟨some domain, some 0, 0⟩)
  | _ => .ok none

/-! ## Numbers -/

theorem toInt32_eq_self {z : Int} (hge : -2 ^ 31 ≤ z) (hlt : z < 2 ^ 31) : toInt32 z = z :=
  Int.bmod_eq_of_le (by omega) (by omega)

theorem toInt32_range (z : Int) : -2 ^ 31 ≤ toInt32 z ∧ toInt32 z < 2 ^ 31 :=
  ⟨Int.le_bmod (by decide), Int.bmod_lt (by decide)⟩

theorem storeInt_eq {z : Int} (hge : -2 ^ 63 ≤ z) (hlt : z < 2 ^ 63) :
    Scan.storeInt z = toInt32 z := by
  have hmin : min (2 ^ 63 - 1) z = z := by omega
  have hmax : max (-2 ^ 63) z = z := by omega
  rw [Scan.storeInt, hmin, hmax, BitVec.toInt_ofInt]
  rfl

/-- A positive `atoi` is in the range of a `long`, and the same is read by `strtoul`. -/
theorem str2int_eq_atoi {str : List Char} (h : 0 < Scan.atoi str) :
    str2int str = Scan.atoi str := by
  rw [Scan.atoi] at h ⊢
  rw [str2int]
  cases hread : Scan.readInt (str.dropWhile Scan.isSpace) with
  | none =>
      rw [hread] at h
      exact absurd h (by decide)
  | some read =>
      obtain ⟨z, rest⟩ := read
      rw [hread] at h
      change 0 < Scan.storeInt z at h
      show (if 2 ^ 64 ≤ z.natAbs then -1 else toInt32 z) = Scan.storeInt z
      have hrange : -2 ^ 63 ≤ z ∧ z < 2 ^ 63 := by
        constructor
        · by_contra hlow
          have hmin : max (-2 ^ 63) (min (2 ^ 63 - 1) z) = -2 ^ 63 := by omega
          have hstore : Scan.storeInt z = 0 := by
            rw [Scan.storeInt, hmin]
            decide
          rw [hstore] at h
          exact absurd h (by decide)
        · by_contra hhigh
          have hmax : max (-2 ^ 63) (min (2 ^ 63 - 1) z) = 2 ^ 63 - 1 := by omega
          have hstore : Scan.storeInt z = -1 := by
            rw [Scan.storeInt, hmax]
            decide
          rw [hstore] at h
          exact absurd h (by decide)
      rw [if_neg (by omega), storeInt_eq hrange.1 hrange.2]

/-! ## The CPUs of a group -/

theorem not_mem_of_mem_splitOn {α : Type} [DecidableEq α] {a : α} {l l' : List α}
    (h : l' ∈ l.splitOn a) : a ∉ l' := by
  induction l generalizing l' with
  | nil =>
      obtain rfl := List.mem_singleton.mp h
      exact List.not_mem_nil
  | cons b l ih =>
      rw [List.splitOn_cons_eq_if_modifyHead] at h
      split at h
      · rcases List.mem_cons.mp h with rfl | h
        · exact List.not_mem_nil
        · exact ih h
      · next hne =>
          have hba : b ≠ a := by simpa using hne
          cases hsplit : l.splitOn a with
          | nil => exact absurd hsplit (List.splitOn_ne_nil a l)
          | cons first rest =>
              rw [hsplit, List.modifyHead_cons] at h
              rw [hsplit] at ih
              rcases List.mem_cons.mp h with rfl | h
              · intro hmem
                rcases List.mem_cons.mp hmem with rfl | hmem
                · exact hba rfl
                · exact ih List.mem_cons_self hmem
              · exact ih (List.mem_cons_of_mem _ h)

/-- The text of the count, and the chunk -/
def groupCount (topo : CpuTopology) (tokens : List (List Char)) : List Char :=
  match tokens with
  | [_, _] => Text.integer (toInt32 topo.activeHWThreads.toNat)
  | _ => tokens.getD 2 []

def groupChunk (tokens : List (List Char)) : Int :=
  match tokens with
  | [_, _, _, chunk, _] => Scan.atoi chunk
  | _ => 1

/-- The expression of a group names a domain with CPUs, a number of them and a chunk. -/
structure FillsGroup (topo : CpuTopology) (aff : List AffinityDomain)
    (tokens : List (List Char)) (cpustr : List Char) : Prop where
  keyword : ¬scatterKeyword <:+: cpustr
  domain : ∃ d, aff.find? (·.tag = tokens.headD []) = some d ∧ 0 < d.numberOfProcessors
  count : 0 < Scan.atoi (groupCount topo tokens)
  chunk : 0 < groupChunk tokens

/-- The list is filled with CPUs of the domain. -/
def Names (topo : CpuTopology) (aff : List AffinityDomain) (tag cpustr : List Char) (n : ℕ) :
    Prop :=
  ∃ l, cpustrToCpulist topo aff cpustr n = .ok l ∧ l.length = n ∧ ∀ cpu ∈ l, InDomain aff tag cpu

section Cpus

variable {topo : CpuTopology} {aff : CpuDomains} {tokens : List (List Char)} {numThreads : Int}
  {cpustr : List Char}

theorem cpuExpression_fields (fields : List (List Char)) (hne : fields ≠ [])
    (hfields : ∀ field ∈ fields, ':' ∉ field) :
    (cpuExpression fields).head? = some 'E' ∧ ':' ∈ cpuExpression fields ∧
      (cpuExpression fields).splitOn ':' = ['E'] :: fields := by
  obtain ⟨field, fields, rfl⟩ := List.exists_cons_of_ne_nil hne
  have hjoin : cpuExpression (field :: fields) =
      'E' :: ':' :: [':'].intercalate (field :: fields) := by
    rw [cpuExpression, List.intercalate_cons_cons]
    rfl
  refine ⟨by rw [hjoin]; rfl, by rw [hjoin]; simp, ?_⟩
  rw [cpuExpression]
  refine List.splitOn_intercalate _ (fun l hl => ?_) (List.cons_ne_nil _ _)
  rcases List.mem_cons.mp hl with rfl | hl
  · decide
  · exact hfields l hl

/-- What is parsed as the expression of a group -/
theorem workgroupCpus_expression (aff : List AffinityDomain)
    (h : workgroupCpus topo tokens = some (numThreads, cpustr))
    (htokens : ∀ token ∈ tokens, ':' ∉ token) :
    ∃ stride, cpustr.head? = some 'E' ∧ ':' ∈ cpustr ∧
      (∀ length, cpustrToCpulistExpression aff cpustr length =
        expressionCpus aff (tokens.headD []) (Scan.atoi (groupCount topo tokens))
          (groupChunk tokens) stride length) ∧
      (0 < Scan.atoi (groupCount topo tokens) →
        numThreads = Scan.atoi (groupCount topo tokens)) := by
  rw [workgroupCpus.eq_def] at h
  split at h
  · next d size =>
      obtain ⟨rfl, rfl⟩ := Prod.mk.inj (Option.some.inj h)
      obtain ⟨hhead, hcolon, hsplit⟩ := cpuExpression_fields
        [d, Text.integer (toInt32 topo.activeHWThreads.toNat)] (List.cons_ne_nil _ _)
        (by
          intro field hfield
          rcases List.mem_pair.mp hfield with hfield | hfield
          · exact htokens field (hfield ▸ List.mem_cons_self)
          · rw [hfield]
            exact Text.not_mem_integer (by decide) (by decide) _)
      refine ⟨1, hhead, hcolon, ?_, ?_⟩
      · intro length
        rw [cpustrToCpulistExpression, if_neg (by rw [hhead]; exact fun h => h rfl), hsplit]
        rfl
      · show 0 < Scan.atoi (Text.integer _) → _ = Scan.atoi (Text.integer _)
        have hrange := toInt32_range (topo.activeHWThreads.toNat : Int)
        rw [Scan.atoi_integer, storeInt_eq (by omega) (by omega),
          toInt32_eq_self hrange.1 hrange.2]
        exact fun _ => rfl
  · next d size count =>
      split at h
      · cases h
      · obtain ⟨rfl, rfl⟩ := Prod.mk.inj (Option.some.inj h)
        obtain ⟨hhead, hcolon, hsplit⟩ := cpuExpression_fields [d, count]
          (List.cons_ne_nil _ _) (by
            intro field hfield
            exact htokens field (by
              rcases List.mem_pair.mp hfield with rfl | rfl
              · simp
              · simp))
        refine ⟨1, hhead, hcolon, fun length => ?_, fun hcount => str2int_eq_atoi hcount⟩
        rw [cpustrToCpulistExpression, if_neg (by rw [hhead]; exact fun h => h rfl), hsplit]
        rfl
  · next d size count chunk stride =>
      split at h
      · cases h
      · obtain ⟨rfl, rfl⟩ := Prod.mk.inj (Option.some.inj h)
        obtain ⟨hhead, hcolon, hsplit⟩ := cpuExpression_fields
          [d, count, chunk, stride] (List.cons_ne_nil _ _) (by
            intro field hfield
            refine htokens field ?_
            simp only [List.mem_cons, List.not_mem_nil, or_false] at hfield ⊢
            rcases hfield with h | h | h | h
            · exact Or.inl h
            · exact Or.inr (Or.inr (Or.inl h))
            · exact Or.inr (Or.inr (Or.inr (Or.inl h)))
            · exact Or.inr (Or.inr (Or.inr (Or.inr h))))
        refine ⟨Scan.atoi stride, hhead, hcolon, fun length => ?_,
          fun hcount => str2int_eq_atoi hcount⟩
        rw [cpustrToCpulistExpression, if_neg (by rw [hhead]; exact fun h => h rfl), hsplit]
        rfl
  · cases h

/-- An expression fills the list exactly if it names CPUs, a number and a chunk. -/
theorem names_iff (h : workgroupCpus topo tokens = some (numThreads, cpustr))
    (htokens : ∀ token ∈ tokens, ':' ∉ token) {part : List Char}
    (hpart : cpustr.splitOn '@' = [part]) (hpos : 0 < numThreads) :
    Names topo aff.domains (tokens.headD []) cpustr numThreads.toNat ↔
      FillsGroup topo aff.domains tokens cpustr := by
  obtain ⟨stride, hhead, hcolon, hexpr, hcount⟩ := workgroupCpus_expression aff.domains h htokens
  rw [Names, cpustrToCpulist_single hpart, cpustrToCpulistPart]
  by_cases hkeyword : scatterKeyword <:+: cpustr
  · rw [if_pos hkeyword, cpustrToCpulistScatter_error topo aff hhead hcolon]
    exact iff_of_false (fun ⟨_, hl, _⟩ => nomatch hl) fun hfills => hfills.keyword hkeyword
  · rw [if_neg hkeyword, if_pos hhead, hexpr]
    constructor
    · rintro ⟨l, hl, hlength, -⟩
      have hempty : expressionCpus aff.domains (tokens.headD [])
          (Scan.atoi (groupCount topo tokens)) (groupChunk tokens) stride numThreads.toNat ≠
          .ok [] := by
        intro hempty
        rw [hempty] at hl
        change cpulistConcat numThreads.toNat [] [] = _ at hl
        rw [cpulistConcat_nil (Nat.zero_le _)] at hl
        obtain rfl := Except.ok.inj hl
        rw [List.length_nil] at hlength
        omega
      by_contra hfills
      refine hempty (expressionCpus_empty fun d hfind hd => hfills ?_)
      exact ⟨hkeyword, ⟨d, hfind, hd.1⟩, hd.2.1, hd.2.2⟩
    · intro hfills
      obtain ⟨d, hfind, hprocessors⟩ := hfills.domain
      have hthreads := hcount hfills.count
      have hcast : Scan.atoi (groupCount topo tokens) = (numThreads.toNat : Int) := by omega
      obtain ⟨l, hl, hlength, hcells⟩ := expressionCpus_full stride hfind hprocessors
        hfills.chunk (show 0 < numThreads.toNat by omega)
      refine ⟨l, ?_, hlength, fun cpu hcpu => ?_⟩
      · rw [hcast, hl]
        exact cpulistConcat_nil hlength.le
      · exact ⟨d, List.mem_of_find?_eq_some hfind, by simpa using List.find?_some hfind,
          hcells cpu hcpu⟩

end Cpus

/-! ## The streams of a group -/

/-- The index, the domain and the offset of a stream -/
def streamDefinition (definition : List Char) : Option (Int × List Char × Int) :=
  match definition.splitOn ':' with
  | [index, domain] => some (str2int index, domain, 0)
  | [index, domain, offset] => some (str2int index, domain, str2int offset)
  | _ => none

/-- There are enough streams, each is defined once, with a known domain and an offset. -/
structure WellFormedList (aff : List AffinityDomain) (numberOfStreams : ℕ)
    (definitions : List (List Char)) : Prop where
  enough : numberOfStreams ≤ definitions.length
  definition : ∀ definition ∈ definitions, ∃ k domain offset,
    streamDefinition definition = some (k, domain, offset) ∧ 0 ≤ k ∧ k < numberOfStreams ∧
      (∃ d ∈ aff, d.tag = domain) ∧ 0 ≤ offset
  once : (definitions.map fun definition => (streamDefinition definition).map (·.1)).Nodup

/-- A stream is written. -/
def setStream (streams : List Stream) (definition : List Char) : List Stream :=
  match streamDefinition definition with
  | some (k, domain, offset) =>
      streams.modify k.toNat fun stream =>
        { stream with domain := some domain, offset := some offset }
  | none => streams

section Streams

variable {aff : List AffinityDomain} {n : ℕ} {definitions : List (List Char)}
  {definition domain : List Char} {k offset : Int} {streams : List Stream}

theorem writeStream_done {f : Stream → Stream} (hge : 0 ≤ k) (hlt : k < streams.length) :
    writeStream k f streams = .done () (streams.modify k.toNat f) := by
  rw [writeStream, Prog.bind_of_done (Prog.get_apply _), if_pos ⟨hge, hlt⟩]
  rfl

theorem parseStream_done (hdef : streamDefinition definition = some (k, domain, offset))
    (hge : 0 ≤ k) (hlt : k < streams.length) (hoffset : 0 ≤ offset) :
    parseStream n definition streams = .done () (setStream streams definition) := by
  rw [setStream, hdef]
  rw [streamDefinition] at hdef
  rw [parseStream]
  split at hdef
  · next index d hsplit =>
      obtain ⟨rfl, hrest⟩ := Prod.mk.inj (Option.some.inj hdef)
      obtain ⟨rfl, rfl⟩ := Prod.mk.inj hrest
      rw [hsplit]
      show (Prog.when _ _ >>= _) _ = _
      rw [Prog.when_of_neg (by omega), Prog.bind_pure_left]
      show (writeStream _ _ >>= _) _ = _
      rw [Prog.bind_of_done (writeStream_done hge hlt)]
      rfl
  · next index d o hsplit =>
      obtain ⟨rfl, hrest⟩ := Prod.mk.inj (Option.some.inj hdef)
      obtain ⟨rfl, rfl⟩ := Prod.mk.inj hrest
      rw [hsplit]
      show (Prog.when _ _ >>= _) _ = _
      rw [Prog.when_of_neg (by omega), Prog.bind_pure_left]
      show (writeStream _ _ >>= _) _ = _
      rw [Prog.bind_of_done (writeStream_done hge hlt)]
      show (writeStream _ _ >>= _) _ = _
      rw [Prog.bind_of_done (writeStream_done hge (by rwa [List.length_modify])),
        Prog.when_of_neg (by omega), List.modify_modify_eq]
      rfl
  · cases hdef

theorem length_setStream : (setStream streams definition).length = streams.length := by
  rw [setStream]
  split
  · exact List.length_modify ..
  · rfl

theorem length_foldl_setStream :
    (definitions.foldl setStream streams).length = streams.length := by
  induction definitions generalizing streams with
  | nil => rfl
  | cons definition definitions ih => rw [List.foldl_cons, ih, length_setStream]

/-- A well-formed list names the streams `0, …, n - 1`. -/
theorem WellFormedList.perm (h : WellFormedList aff n definitions) :
    (definitions.map fun definition => (streamDefinition definition).map (·.1)).Perm
      ((List.range n).map fun i : ℕ => some (i : Int)) := by
  have hsub : (definitions.map fun definition => (streamDefinition definition).map (·.1)) ⊆
      (List.range n).map fun i : ℕ => some (i : Int) := by
    intro index hindex
    obtain ⟨definition, hmem, rfl⟩ := List.mem_map.mp hindex
    obtain ⟨k, domain, offset, hdef, hge, hlt, -⟩ := h.definition definition hmem
    refine List.mem_map.mpr ⟨k.toNat, List.mem_range.mpr (by omega), ?_⟩
    rw [hdef, Int.toNat_of_nonneg hge]
    rfl
  refine (List.subperm_of_subset h.once hsub).perm_of_length_le ?_
  rw [List.length_map, List.length_map, List.length_range]
  exact h.enough

theorem WellFormedList.length_eq (h : WellFormedList aff n definitions) :
    definitions.length = n := by
  have hlen := h.perm.length_eq
  rwa [List.length_map, List.length_map, List.length_range] at hlen

theorem parseStreams_done (h : WellFormedList aff n definitions) :
    parseStreams n definitions [] =
      .done () (definitions.foldl setStream (List.replicate n ⟨none, none, 0⟩)) := by
  have hloop := Prog.forRange_done (n := n)
    (fun _ i => (do
      let token ← Prog.orUndefined definitions[i]?
      parseStream n token : Prog Unit (List Stream) Unit))
    (fun _ => ())
    (fun i => (definitions.take i).foldl setStream (List.replicate n ⟨none, none, 0⟩))
    fun i hi => by
      have hget := List.getElem?_eq_getElem (h.length_eq.symm ▸ hi)
      obtain ⟨k, domain, offset, hdef, hge, hlt, -, hoffset⟩ :=
        h.definition _ (List.mem_of_getElem? hget)
      rw [hget]
      show parseStream n _ _ = _
      rw [parseStream_done hdef hge (by rwa [length_foldl_setStream, List.length_replicate])
        hoffset, List.take_succ_eq_append_getElem (h.length_eq.symm ▸ hi), List.foldl_append]
      rfl
  rw [parseStreams, Prog.bind_of_done (Prog.modify_apply _ _)]
  rw [List.take_of_length_le h.length_eq.le] at hloop
  exact hloop

theorem getElem?_foldl_of_not_mem {i : ℕ}
    (h : ∀ definition ∈ definitions, ∃ k domain offset,
      streamDefinition definition = some (k, domain, offset) ∧ k.toNat ≠ i) :
    (definitions.foldl setStream streams)[i]? = streams[i]? := by
  induction definitions generalizing streams with
  | nil => rfl
  | cons definition definitions ih =>
      obtain ⟨k, domain, offset, hdef, hne⟩ := h definition List.mem_cons_self
      rw [List.foldl_cons, ih fun d hd => h d (List.mem_cons_of_mem _ hd), setStream, hdef]
      exact List.getElem?_modify_ne _ _ hne

/-- A stream is what its definition says. -/
theorem getElem?_foldl_setStream (streams : List Stream)
    (h : ∀ definition ∈ definitions, ∃ k domain offset,
      streamDefinition definition = some (k, domain, offset) ∧ 0 ≤ k)
    (honce : (definitions.map fun definition => (streamDefinition definition).map (·.1)).Nodup)
    (hmem : definition ∈ definitions)
    (hdef : streamDefinition definition = some (k, domain, offset))
    (hlt : k.toNat < streams.length) :
    ∃ stream, (definitions.foldl setStream streams)[k.toNat]? = some stream ∧
      stream.domain = some domain ∧ stream.offset = some offset := by
  induction definitions generalizing streams with
  | nil => cases hmem
  | cons first definitions ih =>
      rw [List.map_cons, List.nodup_cons] at honce
      rw [List.foldl_cons]
      rcases List.mem_cons.mp hmem with rfl | hmem
      · rw [getElem?_foldl_of_not_mem fun d hd => ?_]
        · refine ⟨{ streams[k.toNat] with domain := some domain, offset := some offset }, ?_,
            rfl, rfl⟩
          rw [setStream, hdef]
          show (streams.modify k.toNat _)[k.toNat]? = _
          rw [List.getElem?_modify_eq, List.getElem?_eq_getElem hlt]
          rfl
        · obtain ⟨k', domain', offset', hdef', hge'⟩ := h d (List.mem_cons_of_mem _ hd)
          obtain ⟨_, _, _, hdef'', hge⟩ := h definition List.mem_cons_self
          rw [hdef] at hdef''
          obtain ⟨rfl, -⟩ := Prod.mk.inj (Option.some.inj hdef'')
          refine ⟨k', domain', offset', hdef', fun heq => honce.1 ?_⟩
          refine List.mem_map.mpr ⟨d, hd, ?_⟩
          rw [hdef, hdef']
          show some k' = some k
          congr 1
          omega
      · exact ih _ (fun d hd => h d (List.mem_cons_of_mem _ hd)) honce.2 hmem
          (by rwa [length_setStream])

end Streams

/-! ## What workgroup strings mean -/

def groupTokens (str : List Char) : List (List Char) :=
  ((str.splitOn '-').headD []).splitOn ':'

/-- The definitions of the list of streams, if there is one -/
def streamList (str : List Char) : Option (List (List Char)) :=
  match str.splitOn '-' with
  | [_, list] => some (list.splitOn ',')
  | _ => none

/-- A stream is as its definition says, or the group if there is no list. -/
def NamesStream (str : List Char) (k : ℕ) (stream : Stream) : Prop :=
  match streamList str with
  | none => stream.domain = some ((groupTokens str).headD []) ∧ stream.offset = some 0
  | some definitions => ∃ definition ∈ definitions, ∃ domain offset,
      streamDefinition definition = some ((k : Int), domain, offset) ∧
        stream.domain = some domain ∧ stream.offset = some offset

/-- The processors of a group are CPUs of its domain. -/
structure WellFormedCpus (aff : List AffinityDomain) (tag : List Char) (group : Workgroup) :
    Prop where
  threads : 0 < group.numberOfThreads
  length : group.processorIds.length = group.numberOfThreads
  processors : ∀ cpu ∈ group.processorIds, cpu ≠ none ∧ InDomain aff tag cpu

/-- The list has no error, and the streams are as it says. -/
structure WellFormedStreams (aff : List AffinityDomain) (str : List Char) (numberOfStreams : ℕ)
    (streams : List Stream) : Prop where
  list : ∀ definitions, streamList str = some definitions →
    WellFormedList aff numberOfStreams definitions
  streams : ∀ k < numberOfStreams, ∃ stream, streams[k]? = some stream ∧ NamesStream str k stream

/-- 0 is returned for a group that is well-formed, and only for a string without an error. -/
def AcceptsWellFormed (topo : CpuTopology) (aff : List AffinityDomain) (type : DataType)
    (str : List Char) (numberOfStreams : ℕ) : Prop :=
  match bstrToWorkgroup topo aff type str numberOfStreams with
  | .error _ => False
  | .ok none => True
  | .ok (some group) => WellFormedCpus aff ((groupTokens str).headD []) group ∧
      WellFormedStreams aff str numberOfStreams group.streams

/-! ## The condition -/

/-- A group is rejected for its number of fields, its number of threads or its size. -/
def RejectsGroup (topo : CpuTopology) (type : DataType) (tokens : List (List Char)) : Prop :=
  match workgroupCpus topo tokens with
  | none => True
  | some (numThreads, _) => numThreads < 0 ∨ bstrToDoubleSize (tokens.getD 1 []) type = 0

/-- A string is rejected for its number of parts or for its group. -/
def RejectsString (topo : CpuTopology) (type : DataType) (str : List Char) : Prop :=
  2 < (str.splitOn '-').length ∨ RejectsGroup topo type (groupTokens str)

/-- A group names CPUs. Behind an `@`, its last fields may hold further lists of CPUs; then all
of them together name the CPUs. -/
def FillsCpus (topo : CpuTopology) (aff : List AffinityDomain) (tokens : List (List Char)) :
    Prop :=
  ∃ numThreads cpustr, workgroupCpus topo tokens = some (numThreads, cpustr) ∧ 0 < numThreads ∧
    if (cpustr.splitOn '@').length = 1 then FillsGroup topo aff tokens cpustr
    else Names topo aff (tokens.headD []) cpustr numThreads.toNat

/-- The string has no error. -/
structure WellFormedString (topo : CpuTopology) (aff : List AffinityDomain) (str : List Char)
    (numberOfStreams : ℕ) : Prop where
  streams : 0 < numberOfStreams
  cpus : FillsCpus topo aff (groupTokens str)
  list : ∀ definitions, streamList str = some definitions →
    WellFormedList aff numberOfStreams definitions

section Accepts

variable {topo : CpuTopology} {aff : CpuDomains} {type : DataType} {str : List Char} {n : ℕ}
  {tokens : List (List Char)} {numThreads : Int} {cpustr : List Char}

theorem fillsCpus_iff (aff : CpuDomains)
    (h : workgroupCpus topo tokens = some (numThreads, cpustr))
    (htokens : ∀ token ∈ tokens, ':' ∉ token) :
    FillsCpus topo aff.domains tokens ↔
      0 < numThreads ∧ Names topo aff.domains (tokens.headD []) cpustr numThreads.toNat := by
  have hbranch : 0 < numThreads →
      ((if (cpustr.splitOn '@').length = 1 then FillsGroup topo aff.domains tokens cpustr
        else Names topo aff.domains (tokens.headD []) cpustr numThreads.toNat) ↔
      Names topo aff.domains (tokens.headD []) cpustr numThreads.toNat) := by
    intro hpos
    split
    · next hone =>
        obtain ⟨part, hpart⟩ := List.length_eq_one_iff.mp hone
        exact (names_iff h htokens hpart hpos).symm
    · exact Iff.rfl
  constructor
  · rintro ⟨n, c, hcpus, hpos, hfills⟩
    rw [h] at hcpus
    obtain ⟨rfl, rfl⟩ := Prod.mk.inj (Option.some.inj hcpus)
    exact ⟨hpos, (hbranch hpos).mp hfills⟩
  · rintro ⟨hpos, hnames⟩
    exact ⟨numThreads, cpustr, h, hpos, (hbranch hpos).mpr hnames⟩

/-- The group that a list of CPUs makes -/
def cpuGroup (numThreads size : ℕ) (cpulist : List CpuCell) : Workgroup where
  numberOfThreads := numThreads
  processorIds := cpulist ++ List.replicate (numThreads - cpulist.length) none
  size := size
  streams := []

theorem parseWorkgroup_rejects (h : RejectsGroup topo type tokens) :
    parseWorkgroup topo aff.domains type tokens = .ok none := by
  rw [parseWorkgroup]
  rw [RejectsGroup] at h
  split
  · rfl
  · next numThreads cpustr hcpus =>
      rw [hcpus] at h
      rcases h with hneg | hsize
      · dsimp only
        rw [if_pos hneg, ite_self]
      · exact if_pos hsize

theorem parseWorkgroup_accepts (aff : CpuDomains) (h : ¬RejectsGroup topo type tokens) :
    ∃ numThreads cpustr, workgroupCpus topo tokens = some (numThreads, cpustr) ∧
      parseWorkgroup topo aff.domains type tokens =
        (cpustrToCpulist topo aff.domains cpustr numThreads.toNat).bind fun l =>
          .ok (some (cpuGroup numThreads.toNat (bstrToDoubleSize (tokens.getD 1 []) type) l)) := by
  rw [RejectsGroup] at h
  rw [parseWorkgroup]
  split at h
  · exact absurd trivial h
  · next numThreads cpustr hcpus =>
      rw [not_or] at h
      refine ⟨numThreads, cpustr, hcpus, ?_⟩
      exact (if_neg h.2).trans (if_neg h.1)

/-- The processors are well-formed exactly if the list has as many CPUs, all of the domain. -/
theorem wellFormedCpus_iff {threads size : ℕ} {l : List CpuCell} {streams : List Stream}
    {tag : List Char} (hpos : 0 < threads) :
    WellFormedCpus aff.domains tag
        { cpuGroup threads size l with size := size / n, streams := streams } ↔
      l.length = threads ∧ ∀ cpu ∈ l, InDomain aff.domains tag cpu := by
  constructor
  · rintro ⟨-, hlength, hprocessors⟩
    have hlen : (l ++ List.replicate (threads - l.length) (none : CpuCell)).length = threads :=
      hlength
    rw [List.length_append, List.length_replicate] at hlen
    refine ⟨?_, fun cpu hcpu => (hprocessors cpu (List.mem_append_left _ hcpu)).2⟩
    by_contra hne
    refine (hprocessors none (List.mem_append_right _ ?_)).1 rfl
    exact List.mem_replicate.mpr ⟨by omega, rfl⟩
  · rintro ⟨rfl, hdomain⟩
    have hids : l ++ List.replicate (l.length - l.length) (none : CpuCell) = l := by
      rw [Nat.sub_self, List.replicate_zero, List.append_nil]
    refine ⟨hpos, congrArg List.length hids, fun cpu hcpu => ?_⟩
    have hmem : cpu ∈ l := hids ▸ hcpu
    obtain ⟨d, hd, htag, hcell⟩ := hdomain cpu hmem
    exact ⟨aff.written d hd cpu hcell, d, hd, htag, hcell⟩

/-- The end of `bstr_to_workgroup`, for the streams of a list and for those of the group -/
def withStreams (n : ℕ) (parsed : Except Prog.Halt (Option Workgroup))
    (streams : Except Prog.Halt (List Stream)) : Except Prog.Halt (Option Workgroup) :=
  parsed.bind fun group? =>
    match group? with
    | none => .ok none
    | some group => streams.bind (finishGroup n group)

theorem accepts_withStreams {streams : Except Prog.Halt (List Stream)}
    (hrun : bstrToWorkgroup topo aff.domains type str n =
      withStreams n (parseWorkgroup topo aff.domains type (groupTokens str)) streams)
    (hstreams : (∀ definitions, streamList str = some definitions →
        WellFormedList aff.domains n definitions) →
      ∃ l, streams = .ok l ∧ WellFormedStreams aff.domains str n l) :
    AcceptsWellFormed topo aff.domains type str n ↔
      RejectsGroup topo type (groupTokens str) ∨ WellFormedString topo aff.domains str n := by
  have htokens : ∀ token ∈ groupTokens str, ':' ∉ token := fun _ => not_mem_of_mem_splitOn
  by_cases hrejects : RejectsGroup topo type (groupTokens str)
  · rw [AcceptsWellFormed, hrun, parseWorkgroup_rejects hrejects]
    exact iff_of_true trivial (Or.inl hrejects)
  · rw [or_iff_right hrejects]
    obtain ⟨numThreads, cpustr, hcpus, hparse⟩ := parseWorkgroup_accepts aff hrejects
    have hfills := fillsCpus_iff aff hcpus htokens
    rw [AcceptsWellFormed, hrun, hparse]
    constructor
    · intro h
      cases hlist : cpustrToCpulist topo aff.domains cpustr numThreads.toNat with
      | error e =>
          rw [hlist] at h
          exact h.elim
      | ok l =>
          rw [hlist] at h
          cases hs : streams with
          | error e =>
              rw [hs] at h
              exact h.elim
          | ok ss =>
              rw [hs] at h
              change (match finishGroup n _ ss with
                | .error _ => False
                | .ok none => True
                | .ok (some group) => _ ∧ _) at h
              rcases Nat.eq_zero_or_pos n with hzero | hn
              · rw [finishGroup, if_pos hzero] at h
                exact h.elim
              · rw [finishGroup, if_neg (Nat.ne_of_gt hn)] at h
                obtain ⟨hgroup, hss⟩ := h
                have hpos : 0 < numThreads.toNat := hgroup.threads
                refine ⟨hn, hfills.mpr ⟨by omega, l, hlist, ?_⟩, hss.list⟩
                exact (wellFormedCpus_iff hpos).mp hgroup
    · intro h
      obtain ⟨hpos, l, hlist, hl⟩ := hfills.mp h.cpus
      obtain ⟨ss, hs, hss⟩ := hstreams h.list
      rw [hlist, hs]
      show (match finishGroup n _ ss with
        | .error _ => False
        | .ok none => True
        | .ok (some group) => _ ∧ _)
      rw [finishGroup, if_neg (Nat.ne_of_gt h.streams)]
      exact ⟨(wellFormedCpus_iff (by omega)).mpr hl, hss⟩

/-- Without a list, the streams have the domain of the group. -/
theorem wellFormedStreams_replicate (aff : List AffinityDomain) (hlist : streamList str = none) :
    WellFormedStreams aff str n
      (List.replicate n ⟨some ((groupTokens str).headD []), some 0, 0⟩) where
  list definitions h := by
    rw [hlist] at h
    cases h
  streams k hk := by
    refine ⟨⟨some ((groupTokens str).headD []), some 0, 0⟩, ?_, ?_⟩
    · rw [List.getElem?_replicate, if_pos hk]
    · rw [NamesStream, hlist]
      exact ⟨rfl, rfl⟩

/-- A well-formed list makes well-formed streams. -/
theorem wellFormedStreams_list {aff : List AffinityDomain} {definitions : List (List Char)}
    (hlist : streamList str = some definitions) (h : WellFormedList aff n definitions) :
    WellFormedStreams aff str n
      (definitions.foldl setStream (List.replicate n ⟨none, none, 0⟩)) where
  list definitions' h' := by
    rw [hlist] at h'
    exact Option.some.inj h' ▸ h
  streams k hk := by
    have hmem : some (k : Int) ∈
        definitions.map fun definition => (streamDefinition definition).map (·.1) :=
      h.perm.mem_iff.mpr (List.mem_map.mpr ⟨k, List.mem_range.mpr hk, rfl⟩)
    obtain ⟨definition, hdefinition, hindex⟩ := List.mem_map.mp hmem
    obtain ⟨k', domain, offset, hdef, -⟩ := h.definition definition hdefinition
    rw [hdef] at hindex
    obtain rfl : k' = k := Option.some.inj hindex
    have hnonneg : ∀ definition ∈ definitions, ∃ k domain offset,
        streamDefinition definition = some (k, domain, offset) ∧ 0 ≤ k := by
      intro definition hmem
      obtain ⟨k, domain, offset, hdef, hge, -⟩ := h.definition definition hmem
      exact ⟨k, domain, offset, hdef, hge⟩
    obtain ⟨stream, hget, hdomain, hoffset⟩ := getElem?_foldl_setStream
      (List.replicate n ⟨none, none, 0⟩) hnonneg h.once hdefinition hdef
      (by rwa [Int.toNat_natCast, List.length_replicate])
    refine ⟨stream, hget, ?_⟩
    rw [NamesStream, hlist]
    exact ⟨definition, hdefinition, domain, offset, hdef, hdomain, hoffset⟩

/-- **A workgroup is accepted only if it is well-formed**, exactly for the strings that are
rejected for their fields, their number of threads or their size, and for those without an
error. -/
theorem acceptsWellFormed_iff (topo : CpuTopology) (aff : CpuDomains) (type : DataType)
    (str : List Char) (numberOfStreams : ℕ) :
    AcceptsWellFormed topo aff.domains type str numberOfStreams ↔
      RejectsString topo type str ∨ WellFormedString topo aff.domains str numberOfStreams := by
  rcases hsplit : str.splitOn '-' with _ | ⟨groupstr, _ | ⟨list, _ | ⟨part, parts⟩⟩⟩
  · exact absurd hsplit (List.splitOn_ne_nil _ _)
  · have htokens : groupTokens str = groupstr.splitOn ':' := by
      rw [groupTokens, hsplit]
      rfl
    have hlist : streamList str = none := by
      rw [streamList, hsplit]
    have hlen : ¬2 < (str.splitOn '-').length := by
      rw [hsplit]
      show ¬2 < 1
      decide
    rw [RejectsString, or_iff_right hlen]
    refine accepts_withStreams ?_ fun _ => ⟨_, rfl, wellFormedStreams_replicate _ hlist⟩
    rw [bstrToWorkgroup, hsplit, htokens]
    rfl
  · have htokens : groupTokens str = groupstr.splitOn ':' := by
      rw [groupTokens, hsplit]
      rfl
    have hlist : streamList str = some (list.splitOn ',') := by
      rw [streamList, hsplit]
    have hlen : ¬2 < (str.splitOn '-').length := by
      rw [hsplit]
      show ¬2 < 2
      decide
    rw [RejectsString, or_iff_right hlen]
    have hrun : bstrToWorkgroup topo aff.domains type str numberOfStreams =
        withStreams numberOfStreams (parseWorkgroup topo aff.domains type (groupTokens str))
          (streamsLeft (parseStreams numberOfStreams (list.splitOn ','))) := by
      rw [bstrToWorkgroup, hsplit, htokens]
      rfl
    refine accepts_withStreams hrun fun h => ⟨_, ?_, wellFormedStreams_list hlist (h _ hlist)⟩
    rw [streamsLeft, parseStreams_done (h _ hlist)]
  · have hrejects : RejectsString topo type str := by
      left
      rw [hsplit, List.length_cons, List.length_cons, List.length_cons]
      omega
    refine iff_of_true ?_ (Or.inl hrejects)
    rw [AcceptsWellFormed, bstrToWorkgroup, hsplit]
    exact trivial

end Accepts

/-- A node of four CPUs -/
def fourCpus : CpuDomains where
  domains := [⟨['N'], 4, 4, 4, fun p => some (p : Int)⟩]
  tag d hd := by
    rw [List.mem_singleton.mp hd]
    exact Or.inl rfl
  written d hd cpu hcell := by
    rw [List.mem_singleton.mp hd] at hcell
    obtain ⟨p, -, rfl⟩ := hcell
    exact Option.some_ne_none _

def fourCpuTopology : CpuTopology where
  numHWThreads := 4
  activeHWThreads := 4
  numSockets := 1
  numCoresPerSocket := 4
  numThreadsPerCore := 1
  numCacheLevels := 0
  threadPool := []
  cacheLevels := []
  topologyTree := .null

/-- There is no domain `X`, and the group is accepted without a CPU; the stream 5 of a test
with one stream is written outside of the array. -/
theorem not_acceptsWellFormed :
    ¬AcceptsWellFormed fourCpuTopology fourCpus.domains .double
        ['X', ':', '8', 'k', 'B', ':', '2'] 1 ∧
      ¬AcceptsWellFormed fourCpuTopology fourCpus.domains .double
        ['N', ':', '8', 'k', 'B', ':', '2', '-', '5', ':', 'N'] 1 := by
  constructor
  · intro h
    have hrun : (bstrToWorkgroup fourCpuTopology fourCpus.domains .double
        ['X', ':', '8', 'k', 'B', ':', '2'] 1).toOption =
        some (some ⟨2, [none, none], 1000, [⟨some ['X'], some 0, 0⟩]⟩) := by decide +kernel
    rw [AcceptsWellFormed] at h
    cases hgroup : bstrToWorkgroup fourCpuTopology fourCpus.domains .double
        ['X', ':', '8', 'k', 'B', ':', '2'] 1 with
    | error e =>
        rw [hgroup] at h
        exact h
    | ok group =>
        rw [hgroup] at h hrun
        obtain rfl := Option.some.inj hrun
        exact (h.1.processors none List.mem_cons_self).1 rfl
  · intro h
    have hrun : (bstrToWorkgroup fourCpuTopology fourCpus.domains .double
        ['N', ':', '8', 'k', 'B', ':', '2', '-', '5', ':', 'N'] 1).toOption = none := by
      decide +kernel
    rw [AcceptsWellFormed] at h
    cases hgroup : bstrToWorkgroup fourCpuTopology fourCpus.domains .double
        ['N', ':', '8', 'k', 'B', ':', '2', '-', '5', ':', 'N'] 1 with
    | error e =>
        rw [hgroup] at h
        exact h
    | ok group =>
        rw [hgroup] at hrun
        cases hrun

end Likwid
