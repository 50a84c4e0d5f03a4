import GovernedRecords.Proofs.Auth.Header
import GovernedRecords.Proofs.Number.Difference
import Mathlib.Data.List.Induction

/-!
# Keys that change

The endpoint that publishes the keys may change them at any time, and may fail to answer.  What
the cache does with it is a list of events: readings of the clock, and fetches with what they
gave.  Events have times, and a server says what the next event brings after any others.

A look-up of a key takes one of few courses (`Course`): the key is in the key set at hand, or in a
new one, or in neither, or a fetch fails.  The cache holds nothing, or the key set of an earlier
fetch with a reading from before that fetch (`Filled`), which every course keeps.  So over a whole
run of look-ups a key always comes from a key set that is new or less than ten minutes old, and
none is unknown unless it is missing in a new key set (`lookups_current`).
-/

set_option autoImplicit false

namespace GovernedRecords

/-- A key set as it is published: an object with a list of objects. -/
structure KeySet where
  entries : Entries
  keys : List Entries
  published : Entries.get? entries "keys" = some (.list (keys.map .object))

namespace KeySet

/-- The value that a key set is. -/
def toValue (set : KeySet) : Value := .object set.entries

/-- The first key with an id. -/
def key? (set : KeySet) (id : Value) : Option Entries :=
  set.keys.find? fun key => (Entries.get key "kid").equals id

theorem isTruthy_toValue (set : KeySet) : set.toValue.isTruthy = true := by
  obtain ⟨entries, keys, published⟩ := set
  cases entries with
  | nil => cases published
  | cons entry rest => rfl

theorem toValue_injective {first second : KeySet} (same : first.toValue = second.toValue) :
    first = second := by
  obtain ⟨entries, keys, published⟩ := first
  obtain ⟨others, otherKeys, alsoPublished⟩ := second
  obtain rfl : entries = others := Value.object.inj same
  have lists := Value.list.inj (Option.some.inj (published.symm.trans alsoPublished))
  obtain rfl : keys = otherKeys :=
    List.map_injective_iff.mpr (fun _ _ => Value.object.inj) lists
  rfl

theorem findAmong_objects (id : Value) (keys : List Entries) :
    KeyCache.findAmong id (keys.map .object) =
      .ok ((keys.find? fun key => (Entries.get key "kid").equals id).map .object) := by
  induction keys with
  | nil => rfl
  | cons key rest ih =>
      rw [List.map_cons, KeyCache.findAmong, List.find?_cons]
      cases (Entries.get key "kid").equals id with
      | true => rfl
      | false => exact ih

/-- What is found in a key set is its first key with the id. -/
theorem find_toValue (set : KeySet) (id : Value) :
    KeyCache.find set.toValue id = .ok ((set.key? id).map .object) := by
  rw [toValue, KeyCache.find, set.published]
  exact findAmong_objects id set.keys

end KeySet

/-! ## Events -/

/-- What happens between the cache and the world. -/
inductive KeyEvent where
  /-- The clock is read. -/
  | read (time : Double)
  /-- The key set is fetched, which gives a key set or fails with some words. -/
  | fetched (time : Double) (answer : Except Text KeySet)

namespace KeyEvent

/-- When an event happens. -/
def time : KeyEvent → Double
  | .read time => time
  | .fetched time _ => time

/-- Whether an event is a fetch. -/
def isFetch : KeyEvent → Bool
  | .read _ => false
  | .fetched _ _ => true

end KeyEvent

/-- The clock and the endpoint: after some events, when the next one happens, and what it gives if
it is a fetch. -/
structure KeyServer where
  time : List KeyEvent → Double
  answer : List KeyEvent → Except Text KeySet

/-- A server and what happened so far. -/
structure KeyWorld where
  server : KeyServer
  history : List KeyEvent

namespace KeyWorld

/-- The world after some more events. -/
def goOn (world : KeyWorld) (events : List KeyEvent) : KeyWorld :=
  { world with history := world.history ++ events }

@[simp] theorem goOn_goOn (world : KeyWorld) (first second : List KeyEvent) :
    (world.goOn first).goOn second = world.goOn (first ++ second) :=
  congrArg (KeyWorld.mk world.server) (List.append_assoc ..)

/-- The fault of a fetch that fails. -/
def given (answer : Except Text KeySet) : Except Fault Value :=
  (answer.mapError .unreachableKeys).map KeySet.toValue

/-- The clock and the endpoint of a world. -/
def source : KeySource KeyWorld where
  clock := .of fun world =>
    let time := world.server.time world.history
    (.ok (.double time), world.goOn [.read time])
  fetch := .of fun world =>
    let answer := world.server.answer world.history
    (given answer, world.goOn [.fetched (world.server.time world.history) answer])

end KeyWorld

/-- The times of some events are numbers that never decrease. -/
structure Steady (history : List KeyEvent) : Prop where
  finite : ∀ event ∈ history, event.time.isFinite = true
  ordered : history.Pairwise fun first second => first.time.toRat ≤ second.time.toRat

theorem Steady.le {history : List KeyEvent} {first second : KeyEvent} (steady : Steady history)
    (follows : [first, second].Sublist history) : first.time.toRat ≤ second.time.toRat := by
  have pair := steady.ordered.sublist follows
  exact List.rel_of_pairwise_cons pair List.mem_cons_self

/-- A token to be checked, with its header. -/
structure TokenCall where
  token : Value
  header : Entries
  issuer : Value
  audience : Value

namespace TokenCall

/-- The id of the key by which a token says that it was signed. -/
def id (call : TokenCall) : Value := Entries.get call.header "kid"

/-- The check of a token in a world. -/
def run (call : TokenCall) : Operation (KeyCache × KeyWorld) TokenCheck :=
  KeyCache.checkBy KeyWorld.source call.token (.object call.header) call.issuer call.audience

/-- The cache and the world after the checks of some tokens, of which nothing was cached before
the first. -/
def after (server : KeyServer) (calls : List TokenCall) : KeyCache × KeyWorld :=
  calls.foldl (fun state call => (call.run.on state).2) (.empty, ⟨server, []⟩)

end TokenCall

namespace KeyCache

/-! ## Courses -/

/-- The cache after a fetch: a key set is kept with the reading before, and a fetch that fails
leaves the cache as it was. -/
def keep (cache : KeyCache) (now : Double) : Except Text KeySet → KeyCache
  | .ok set => ⟨set.toValue, .double now⟩
  | .error _ => cache

/-- The cache after some events, of which each fetch comes after a reading of the clock. -/
def follow : KeyCache → List KeyEvent → KeyCache
  | cache, .read now :: .fetched _ answer :: rest => follow (cache.keep now answer) rest
  | cache, _ :: rest => follow cache rest
  | cache, [] => cache

/-- A fetch with the reading of the clock before it. -/
def renewal (now time : Double) (answer : Except Text KeySet) : List KeyEvent :=
  [.read now, .fetched time answer]

/-- How the key set at hand is found: it is fresh, or a new one is fetched. -/
inductive Look (cache : KeyCache) (now : Double) :
    List KeyEvent → Except Text KeySet → KeyCache → Prop where
  | held {set : KeySet} {reading : Double} (held : cache = ⟨set.toValue, .double reading⟩)
      (fresh : cache.isFresh (.double now) = .ok true) : Look cache now [.read now] (.ok set) cache
  | renewed (stale : cache.isFresh (.double now) = .ok false) (time : Double)
      (answer : Except Text KeySet) :
      Look cache now (renewal now time answer) answer (cache.keep now answer)

/-- What comes of a look-up in a new key set. -/
def sought (id : Value) : Except Text KeySet → Except Fault Value
  | .error words => .error (.unreachableKeys words)
  | .ok set =>
    match set.key? id with
    | some key => .ok (.object key)
    | none => .error (.rejectedToken "Unknown kid")

/-- How a key is looked up: what happens, what comes of it, and the cache that is left. -/
inductive Course (cache : KeyCache) (id : Value) (now : Double) :
    List KeyEvent → Except Fault Value → KeyCache → Prop where
  | unreachable {events : List KeyEvent} {after : KeyCache} {words : Text}
      (look : Look cache now events (.error words) after) :
      Course cache id now events (.error (.unreachableKeys words)) after
  | found {events : List KeyEvent} {after : KeyCache} {set : KeySet} {key : Entries}
      (look : Look cache now events (.ok set) after) (found : set.key? id = some key) :
      Course cache id now events (.ok (.object key)) after
  | again {events : List KeyEvent} {after : KeyCache} {set : KeySet}
      (look : Look cache now events (.ok set) after) (missing : set.key? id = none)
      (reading time : Double) (answer : Except Text KeySet) :
      Course cache id now (events ++ renewal reading time answer) (sought id answer)
        (after.keep reading answer)

/-! ## Every look-up takes a course -/

/-- A cache holds nothing, or a key set that was fetched, with the reading before the fetch. -/
inductive Filled (history : List KeyEvent) : KeyCache → Prop where
  | empty : Filled history .empty
  | kept {earlier later : List KeyEvent} {reading time : Double} {set : KeySet}
      (fetched : history = earlier ++ renewal reading time (.ok set) ++ later) :
      Filled history ⟨set.toValue, .double reading⟩

section Filled

variable {cache after : KeyCache} {now : Double} {history events : List KeyEvent}

theorem Filled.append (filled : Filled history cache) (events : List KeyEvent) :
    Filled (history ++ events) cache := by
  cases filled with
  | empty => exact .empty
  | @kept earlier later reading time set fetched =>
      have still : history ++ events =
          earlier ++ renewal reading time (.ok set) ++ (later ++ events) := by
        rw [fetched, List.append_assoc]
      exact .kept still

theorem Filled.keep (filled : Filled history cache) (now time : Double)
    (answer : Except Text KeySet) :
    Filled (history ++ renewal now time answer) (cache.keep now answer) := by
  cases answer with
  | error words => exact filled.append _
  | ok set => exact .kept (List.append_nil _).symm

/-- A key set that is held was fetched after the reading that is held with it. -/
theorem Filled.fetched {set : KeySet} {reading : Double}
    (filled : Filled history ⟨set.toValue, .double reading⟩) :
    ∃ earlier time later, history = earlier ++ renewal reading time (.ok set) ++ later := by
  generalize held : KeyCache.mk set.toValue (.double reading) = cache at filled
  cases filled with
  | empty => cases held
  | @kept earlier later _ time kept fetched =>
      obtain ⟨same, read⟩ := KeyCache.mk.inj held
      obtain rfl := KeySet.toValue_injective same
      cases read
      exact ⟨earlier, time, later, fetched⟩

/-- A cache is fresh only if it holds a key set. -/
theorem Filled.isFresh (filled : Filled history cache) (now : Double) :
    cache.isFresh (.double now) = .ok false ∨
      cache.isFresh (.double now) = .ok true ∧
        ∃ set reading, cache = ⟨KeySet.toValue set, .double reading⟩ := by
  cases filled with
  | empty => exact .inl rfl
  | @kept _ _ reading _ set _ =>
      rw [KeyCache.isFresh, if_pos set.isTruthy_toValue]
      cases fresh : (Value.Numeric.double (now.subtract reading)).lt lifetime with
      | false => exact .inl (congrArg Except.ok fresh)
      | true => exact .inr ⟨congrArg Except.ok fresh, set, reading, rfl⟩

theorem Look.filled {answer : Except Text KeySet} (look : Look cache now events answer after)
    (filled : Filled history cache) : Filled (history ++ events) after := by
  cases look with
  | held => exact filled.append _
  | renewed _ time => exact filled.keep now time answer

theorem Course.filled {id : Value} {result : Except Fault Value}
    (course : Course cache id now events result after) (filled : Filled history cache) :
    Filled (history ++ events) after := by
  cases course with
  | unreachable look => exact look.filled filled
  | found look => exact look.filled filled
  | again look _ reading time answer =>
      rw [← List.append_assoc]
      exact (look.filled filled).keep reading time answer

end Filled

section World

open KeyWorld

variable (cache : KeyCache) (world : KeyWorld)

theorem renew_on (now : Double) :
    (renew source (.double now)).on (cache, world) =
      (given (world.server.answer world.history),
        (cache.keep now (world.server.answer world.history),
          world.goOn [.fetched (world.server.time world.history)
            (world.server.answer world.history)])) := by
  rw [renew, Operation.on_bind, Operation.on_onSecond]
  simp only [source, Operation.on_of]
  cases world.server.answer world.history with
  | error words => rfl
  | ok set => rfl

/-- To refresh is to fetch after a reading of the clock. -/
theorem refresh_on :
    ∃ now time answer, (refresh source).on (cache, world) =
      (given answer, (cache.keep now answer, world.goOn (renewal now time answer))) := by
  have read : (refresh source).on (cache, world) =
      (renew source (.double (world.server.time world.history))).on
        (cache, world.goOn [.read (world.server.time world.history)]) := rfl
  rw [read, renew_on, goOn_goOn]
  exact ⟨_, _, _, rfl⟩

variable {cache world}

/-- The key set at hand is found by a look. -/
theorem current_on (filled : Filled world.history cache) :
    ∃ now events answer after, Look cache now events answer after ∧
      (current source).on (cache, world) = (given answer, (after, world.goOn events)) := by
  have read : (current source).on (cache, world) =
      match cache.isFresh (.double (world.server.time world.history)) with
      | .error fault => (.error fault, (cache, world.goOn [.read (world.server.time world.history)]))
      | .ok fresh => if fresh then
          (.ok cache.keys, (cache, world.goOn [.read (world.server.time world.history)]))
        else (renew source (.double (world.server.time world.history))).on
          (cache, world.goOn [.read (world.server.time world.history)]) := by
    rw [current, Operation.on_bind, Operation.on_onSecond]
    simp only [source, Operation.on_of, Operation.on_bind, Operation.on_get, Operation.on_ofExcept]
    cases cache.isFresh (.double (world.server.time world.history)) with
    | error fault => rfl
    | ok fresh => cases fresh <;> rfl
  rw [read]
  rcases filled.isFresh (world.server.time world.history) with
    stale | ⟨fresh, set, reading, held⟩
  · rw [stale]
    simp only [Bool.false_eq_true, if_false, renew_on, goOn_goOn]
    exact ⟨_, _, _, _, .renewed stale _ _, rfl⟩
  · rw [fresh]
    refine ⟨_, _, .ok set, _, .held held fresh, ?_⟩
    rw [held]
    rfl

/-- **A key is looked up by a course.** -/
theorem key_on (filled : Filled world.history cache) (id : Value) :
    ∃ now events result after, Course cache id now events result after ∧
      (key source id).on (cache, world) = (result, (after, world.goOn events)) := by
  obtain ⟨now, events, answer, after, look, looked⟩ := current_on filled
  rw [key, Operation.on_bind, looked]
  cases answer with
  | error words => exact ⟨now, events, _, after, .unreachable look, rfl⟩
  | ok set =>
      simp only [given, Operation.mapError_ok, Except.map, Operation.on_bind,
        Operation.on_ofExcept, set.find_toValue]
      cases found : set.key? id with
      | some key => exact ⟨now, events, _, after, .found look found, rfl⟩
      | none =>
          obtain ⟨reading, time, answer, renewed⟩ := refresh_on after (world.goOn events)
          refine ⟨now, _, _, _, .again look found reading time answer, ?_⟩
          rw [goOn_goOn] at renewed
          simp only [Option.map_none, Operation.on_bind, renewed]
          cases answer with
          | error words => rfl
          | ok renewedSet =>
              simp only [given, Operation.mapError_ok, Except.map, Operation.on_ofExcept,
                renewedSet.find_toValue, sought]
              cases renewedSet.key? id <;> rfl

end World

/-! ## What a look-up tells -/

section Lookup

variable {cache after : KeyCache} {now : Double} {history events : List KeyEvent} {id : Value}
  {result : Except Fault Value}

/-- A key set that is fresh was fetched less than ten minutes ago. -/
theorem lt_of_isFresh {set : KeySet} {reading : Double} (finite : reading.isFinite = true)
    (also : now.isFinite = true)
    (fresh : (KeyCache.mk set.toValue (.double reading)).isFresh (.double now) = .ok true) :
    now.toRat < reading.toRat + 600 := by
  rw [KeyCache.isFresh, if_pos set.isTruthy_toValue] at fresh
  have young : (now.subtract reading).lt (.finite false 600 0) = true := Except.ok.inj fresh
  have less := Double.subtract_lt also finite (by decide) (by decide) (by decide) young
  simpa using less

/-- A key set at hand is new, or was fetched less than ten minutes ago. -/
theorem Look.current {set : KeySet} (look : Look cache now events (.ok set) after)
    (filled : Filled history cache) (steady : Steady (history ++ events)) :
    ∃ time, .fetched time (.ok set) ∈ events ∨
      .fetched time (.ok set) ∈ history ∧ time.toRat ≤ now.toRat ∧ now.toRat < time.toRat + 600 := by
  cases look with
  | renewed _ time => exact ⟨time, .inl (by simp [renewal])⟩
  | @held _ reading held fresh =>
      subst held
      obtain ⟨earlier, time, later, rfl⟩ := filled.fetched
      have fetched : KeyEvent.fetched time (.ok set) ∈
          earlier ++ renewal reading time (.ok set) ++ later := by simp [renewal]
      have readBefore : reading.toRat ≤ time.toRat :=
        @Steady.le _ (.read reading) (.fetched time (.ok set)) steady
          (List.IsInfix.sublist ⟨earlier, later ++ [.read now], by simp [renewal]⟩)
      have fetchedBefore : time.toRat ≤ now.toRat :=
        @Steady.le _ (.fetched time (.ok set)) (.read now) steady
          ((List.singleton_sublist.mpr fetched).append (List.Sublist.refl [KeyEvent.read now]))
      have young : now.toRat < reading.toRat + 600 :=
        lt_of_isFresh (steady.finite (.read reading) (by simp [renewal]))
          (steady.finite (.read now) (by simp)) fresh
      exact ⟨time, .inr ⟨fetched, fetchedBefore, by linarith⟩⟩

theorem Look.begins {answer : Except Text KeySet} (look : Look cache now events answer after) :
    ∃ rest, events = .read now :: rest := by
  cases look with
  | held => exact ⟨[], rfl⟩
  | renewed _ time answer => exact ⟨[.fetched time answer], rfl⟩

/-- A look-up begins with a reading of the clock. -/
theorem Course.begins (course : Course cache id now events result after) :
    ∃ rest, events = .read now :: rest := by
  cases course with
  | unreachable look => exact look.begins
  | found look => exact look.begins
  | again look _ reading time answer =>
      obtain ⟨rest, rfl⟩ := look.begins
      exact ⟨rest ++ renewal reading time answer, rfl⟩

theorem Look.fetches {answer : Except Text KeySet} (look : Look cache now events answer after) :
    events.countP KeyEvent.isFetch ≤ 1 := by
  cases look with
  | held => exact Nat.zero_le _
  | renewed => exact Nat.le_refl _

/-- A look-up fetches at most twice. -/
theorem Course.fetches (course : Course cache id now events result after) :
    events.countP KeyEvent.isFetch ≤ 2 := by
  cases course with
  | unreachable look => exact look.fetches.trans (by decide)
  | found look => exact look.fetches.trans (by decide)
  | again look =>
      rw [List.countP_append]
      exact Nat.add_le_add_right look.fetches 1

/-- A key that is looked up is the first one with the id in a key set that is current. -/
theorem Course.current {key : Value} (course : Course cache id now events (.ok key) after)
    (filled : Filled history cache) (steady : Steady (history ++ events)) :
    ∃ set found time, set.key? id = some found ∧ key = .object found ∧
      (.fetched time (.ok set) ∈ events ∨ .fetched time (.ok set) ∈ history ∧
        time.toRat ≤ now.toRat ∧ now.toRat < time.toRat + 600) := by
  generalize ended : Except.ok key = result at course
  cases course with
  | unreachable => cases ended
  | @found _ _ set key look found =>
      obtain ⟨time, current⟩ := look.current filled steady
      exact ⟨set, key, time, found, Except.ok.inj ended, current⟩
  | again look missing reading time answer =>
      cases answer with
      | error words => cases ended
      | ok set =>
          cases found : set.key? id with
          | none =>
              rw [sought, found] at ended
              cases ended
          | some key =>
              rw [sought, found] at ended
              exact ⟨set, key, time, found, Except.ok.inj ended, .inl (by simp [renewal])⟩

/-- A key is unknown only if it is missing in a new key set. -/
theorem Course.unknown {words : Text}
    (course : Course cache id now events (.error (.rejectedToken words)) after) :
    words = "Unknown kid" ∧ ∃ set time, .fetched time (.ok set) ∈ events ∧ set.key? id = none := by
  generalize ended : Except.error (Fault.rejectedToken words) = result at course
  cases course with
  | unreachable => cases ended
  | found => cases ended
  | again look missing reading time answer =>
      cases answer with
      | error words => cases ended
      | ok set =>
          cases found : set.key? id with
          | some key =>
              rw [sought, found] at ended
              cases ended
          | none =>
              rw [sought, found] at ended
              cases ended
              exact ⟨rfl, set, time, by simp [renewal], found⟩

theorem mem_renewal {reading time fetchTime : Double} {words : Text}
    {answer : Except Text KeySet} :
    .fetched fetchTime (.error words) ∈ renewal reading time answer ↔
      fetchTime = time ∧ .error words = answer := by
  simp [renewal]

/-- A fetch that fails while the key set at hand is looked for comes first. -/
theorem Look.failed {answer : Except Text KeySet} {time : Double} {words : Text}
    (look : Look cache now events answer after) (failed : .fetched time (.error words) ∈ events) :
    answer = .error words ∧ events = renewal now time (.error words) ∧ after = cache := by
  cases look with
  | held => simp at failed
  | renewed =>
      obtain ⟨rfl, rfl⟩ := mem_renewal.mp failed
      exact ⟨rfl, rfl, rfl⟩

/-- After a key set was found at hand, reading the clock once more does not change the cache. -/
theorem Look.follow {set : KeySet} (look : Look cache now events (.ok set) after)
    (reading : Double) : after = KeyCache.follow cache (events ++ [.read reading]) := by
  cases look with
  | held => rfl
  | renewed => rfl

/-- A fetch that fails is the end of the look-up, and leaves the cache as it was before. -/
theorem Course.failed {time : Double} {words : Text}
    (course : Course cache id now events result after)
    (failed : .fetched time (.error words) ∈ events) :
    result = .error (.unreachableKeys words) ∧ ∃ earlier,
      events = earlier ++ [.fetched time (.error words)] ∧ after = follow cache earlier := by
  cases course with
  | unreachable look =>
      obtain ⟨same, rfl, rfl⟩ := look.failed failed
      cases same
      exact ⟨rfl, [.read now], rfl, rfl⟩
  | found look =>
      obtain ⟨same, -, -⟩ := look.failed failed
      cases same
  | @again before _ _ look missing reading time answer =>
      rcases List.mem_append.mp failed with first | second
      · obtain ⟨same, -, -⟩ := look.failed first
        cases same
      · obtain ⟨rfl, rfl⟩ := mem_renewal.mp second
        exact ⟨rfl, before ++ [KeyEvent.read reading], by simp [renewal], look.follow reading⟩

/-- A look-up that ends without a key ends with a fetch that failed, or the key is unknown. -/
theorem Course.reason {fault : Fault} (course : Course cache id now events (.error fault) after) :
    fault = .rejectedToken "Unknown kid" ∨
      ∃ time words, .fetched time (.error words) ∈ events ∧ fault = .unreachableKeys words := by
  generalize ended : Except.error fault = result at course
  cases course with
  | unreachable look =>
      cases ended
      cases look with
      | renewed _ time => exact .inr ⟨time, _, mem_renewal.mpr ⟨rfl, rfl⟩, rfl⟩
  | found => cases ended
  | again look missing reading time answer =>
      cases answer with
      | error words =>
          cases ended
          exact .inr ⟨time, words, List.mem_append_right _ (mem_renewal.mpr ⟨rfl, rfl⟩), rfl⟩
      | ok set =>
          rw [sought] at ended
          split at ended
          · cases ended
          · cases ended
            exact .inl rfl

/-- What the check of a token tells, after a history and from a cache, when it begins at a time
and the token says that it was signed with the key of an id.  The last field says that there is no
other reason for it to fail. -/
structure Told (history : List KeyEvent) (cache : KeyCache) (id : Value) (now : Double)
    (events : List KeyEvent) (result : Except Fault TokenCheck) (after : KeyCache) : Prop where
  fetches : events.countP KeyEvent.isFetch ≤ 2
  current : ∀ check, result = .ok check → ∃ set found time, set.key? id = some found ∧
    check.key = .object found ∧ (.fetched time (.ok set) ∈ events ∨
      .fetched time (.ok set) ∈ history ∧ time.toRat ≤ now.toRat ∧ now.toRat < time.toRat + 600)
  unknown : result = .error (.rejectedToken "Unknown kid") →
    ∃ set time, .fetched time (.ok set) ∈ events ∧ set.key? id = none
  failed : ∀ time words, .fetched time (.error words) ∈ events →
    result = .error (.unreachableKeys words) ∧ ∃ earlier,
      events = earlier ++ [.fetched time (.error words)] ∧ after = follow cache earlier
  reason : ∀ fault, result = .error fault → fault = .rejectedToken "Unknown kid" ∨
    ∃ time words, .fetched time (.error words) ∈ events ∧ fault = .unreachableKeys words

/-- A course tells of the check for which the key is looked up. -/
theorem Course.told (course : Course cache id now events result after)
    (filled : Filled history cache) (steady : Steady (history ++ events)) {check : Value → TokenCheck}
    (keyed : ∀ key, (check key).key = key) :
    Told history cache id now events (result.map check) after where
  fetches := course.fetches
  current made done := by
    cases result with
    | error fault => cases done
    | ok key =>
        cases done
        rw [keyed]
        exact course.current filled steady
  unknown ended := by
    cases result with
    | ok key => cases ended
    | error fault =>
        cases ended
        exact course.unknown.2
  failed time words failed := by
    obtain ⟨rfl, earlier⟩ := course.failed failed
    exact ⟨rfl, earlier⟩
  reason fault ended := by
    cases result with
    | ok key => cases ended
    | error fault =>
        cases ended
        exact course.reason

end Lookup

end KeyCache

/-! ## Runs -/

namespace TokenCall

open KeyCache

variable {server : KeyServer} {calls : List TokenCall}

/-- The check of a token goes on with the events of a course. -/
theorem run_on (call : TokenCall) {cache : KeyCache} {world : KeyWorld}
    (filled : Filled world.history cache) :
    ∃ now events result after, Course cache call.id now events result after ∧
      call.run.on (cache, world) =
        (result.map fun key => ⟨call.token, key, [algorithm call.header], call.issuer, call.audience⟩,
          (after, world.goOn events)) := by
  obtain ⟨now, events, result, after, course, looked⟩ := key_on filled call.id
  refine ⟨now, events, result, after, course, ?_⟩
  rw [run, checkBy_on, ← id, looked]

/-- Every run of checks leaves a cache that holds nothing or a key set that was fetched. -/
theorem filled_after (server : KeyServer) (calls : List TokenCall) :
    Filled (after server calls).2.history (after server calls).1 := by
  induction calls using List.reverseRecOn with
  | nil => exact .empty
  | append_singleton calls call ih =>
      obtain ⟨_, _, _, _, course, ran⟩ := call.run_on ih
      rw [after, List.foldl_append, List.foldl_cons, List.foldl_nil, ← after]
      have left := congrArg Prod.snd ran
      rw [left]
      exact course.filled ih

/-- **Looking up keys keeps up with an endpoint that changes them.**  After any run of checks, from
an empty cache and with any answers of the endpoint, a further check begins with a reading of the
clock and tells what `Told` says: it fetches at most twice; the key that it is made with is the
first one with the id of the token in a key set that was fetched in this check or less than ten
minutes before; the key is unknown only if a key set that was fetched in this check lacks it; and
a fetch that fails leaves the cache as it was before the fetch. -/
theorem lookups_current (server : KeyServer) (calls : List TokenCall) (call : TokenCall)
    (steady : Steady (after server (calls ++ [call])).2.history) :
    ∃ now rest,
      (after server (calls ++ [call])).2.history =
        (after server calls).2.history ++ .read now :: rest ∧
      Told (after server calls).2.history (after server calls).1 call.id now (.read now :: rest)
        (call.run.on (after server calls)).1 (after server (calls ++ [call])).1 := by
  obtain ⟨now, events, result, left, course, ran⟩ := call.run_on (filled_after server calls)
  have next : after server (calls ++ [call]) = (left, (after server calls).2.goOn events) := by
    rw [after, List.foldl_append, List.foldl_cons, List.foldl_nil, ← after]
    exact congrArg Prod.snd ran
  have done : (call.run.on (after server calls)).1 = _ := congrArg Prod.fst ran
  obtain ⟨rest, rfl⟩ := course.begins
  rw [next] at steady ⊢
  rw [done]
  exact ⟨now, rest, rfl, course.told (filled_after server calls) steady fun _ => rfl⟩

/-- The key set with one key, under an id. -/
def publishing (id : Value) : KeySet where
  entries := [(.text "keys", .list [.object [(.text "kid", id)]])]
  keys := [[(.text "kid", id)]]
  published := rfl

/-- An endpoint that changes its key after three events, with an event each second. -/
def changing : KeyServer where
  time history := .finite false history.length 0
  answer history := .ok (publishing (if history.length < 3 then "a" else "b"))

/-- A token that says that it was signed with the key of an id. -/
def signedWith (id : Value) : TokenCall := ⟨"t", [(.text "kid", id)], "iss", .null⟩

/-- The first key is fetched for one token, the second key for another one, and that key is in the
cache for a third. -/
theorem changed_key_current :
    let calls := [signedWith "a", signedWith "b"]
    Steady (after changing (calls ++ [signedWith "b"])).2.history ∧ ∃ now rest,
      (after changing (calls ++ [signedWith "b"])).2.history =
        (after changing calls).2.history ++ .read now :: rest ∧
      Told (after changing calls).2.history (after changing calls).1 "b" now (.read now :: rest)
        ((signedWith "b").run.on (after changing calls)).1
        (after changing (calls ++ [signedWith "b"])).1 := by
  intro calls
  have times : (after changing (calls ++ [signedWith "b"])).2.history.map KeyEvent.time =
      (List.range 6).map fun second => .finite false second 0 := by decide +kernel
  have steady : Steady (after changing (calls ++ [signedWith "b"])).2.history := by
    constructor
    · intro event member
      have listed := List.mem_map_of_mem (f := KeyEvent.time) member
      rw [times] at listed
      obtain ⟨second, -, same⟩ := List.mem_map.mp listed
      rw [← same]
      rfl
    · rw [← List.pairwise_map (f := KeyEvent.time)
        (R := fun first second => first.toRat ≤ second.toRat), times, List.pairwise_map]
      refine List.pairwise_lt_range.imp ?_
      intro first second less
      simpa [Double.toRat] using less.le
  exact ⟨steady, lookups_current changing calls (signedWith "b") steady⟩

end TokenCall

end GovernedRecords
