import Wirepool.Proofs.Session.Slices
import Wirepool.Proofs.Store.Verdicts

/-!
# Verdicts in a session

The memory that a driver gets in a session holds what earlier borrowers left there,
and a slice may be cut off a fragment that has been written to before. Every arena
of a session is tidy, so each driver gets just as much memory as it has measured,
and reaches the verdict that the turns of the caller deserve.
-/

namespace Wirepool

namespace Session

/-- **The arenas of a session are tidy.** -/
def ArenasTidy (s : Session) : Prop := ∀ name a, s.arenas.get? name = some a → a.Tidy

/-- **The arenas of every session that can be reached are tidy**, since the slices that
are out of them are laid out. -/
theorem arenasTidy_play (commands : List Command) :
    (({} : Session).play commands).2.ArenasTidy :=
  fun name a ha => ((out_play name commands).laid a ha).toTidy

/-! ## The drivers -/

/-- **All drivers reach the verdict on a message.** A caller may take any turn in the
counting pass and any other one in the writing pass. Memory of the caller, memory of
its own from a pool or from the system, and a slice of an arena, in any session that
can be reached: whatever they hold, what comes of the message is the verdict on the
two turns, unless the memory for the measured length cannot be had. A message that
is made is as long as was measured, and all of it is what the second turn enters. -/
theorem drivers_reach_verdict :
    (∀ counted written : Turn, ∃ script : Script, ∀ order destination,
      script.turn (.counter order) = counted ∧
        script.turn (.writer order destination) = written) ∧
    ∀ (commands : List Command) (script : Script) (order : ByteOrder),
      let s := (({} : Session).play commands).2
      (∀ room message, script.verdict order room = .ok message →
        (script.measure order).length = .ok message.length ∧
          message = Entry.image order
            (script.turn (.writer order (List.replicate message.length 0))).entries) ∧
      (∀ memory : List UInt8,
        (script.encodeInto order memory).1.result =
            (script.verdict order (some memory.length)).map List.length ∧
          ∀ message, script.verdict order (some memory.length) = .ok message →
            (script.encodeInto order memory).2 = message ++ memory.drop message.length) ∧
      (∀ home : Option Nat, (∀ number ∈ home, number < s.store.pools.length) →
        Ends (script.encode order home s.store)
          (fun encoded _ => encoded.result.map Loan.view = script.verdict order none)
          fun abort t => ∃ length, (script.measure order).length = .ok length ∧
            Store.obtain home length s.store = .error abort t) ∧
      ∀ name arena, s.arenas.get? name = some arena →
        Ends (script.encodeInArena order (arena, s.store))
          (fun encoded t =>
            encoded.result.map (fun slice => t.1.read slice 0 slice.length) =
              script.verdict order none)
          fun abort t => ∃ length, (script.measure order).length = .ok length ∧
            Arena.get length false (arena, s.store) = .error abort t := by
  refine ⟨fun counted written => ⟨.ofTurns counted written,
    Script.turn_ofTurns counted written⟩, fun commands script order => ?_⟩
  intro s
  have hsound : s.Sound := sound_play commands
  refine ⟨fun _ _ => Script.eq_image_of_verdict, script.encodeInto_verdict order,
    fun home hhome => Script.encode_verdict hsound.store_sound hhome script order,
    fun name arena harena => ?_⟩
  have hmem := Table.mem_values_of_get? harena
  obtain ⟨others, hstore⟩ := hsound.store_of_arena hmem
  exact (Script.encodeInArena_verdict (arenasTidy_play commands name arena harena) hstore
    (hsound.arenas_lt arena hmem) script order).mono (fun _ _ ht => ht.2) fun _ _ ht => ht.2

/-- A caller that writes a byte less than it has counted, over a page full of sevens
and in a slice of an arena, and one that writes in front of what the memory held. -/
theorem drivers_reach_verdict_stale :
    let before : List Command := [.pool (.make "pool"), .pool (.borrow "pool" 16 false "loan"),
      .loan (.fill "loan" 7 {}), .loan (.release "loan"), .arena (.make "pool" 64 false "arena")]
    let s := (({} : Session).play before).2
    let short : Script := ⟨[.whenCounting (.put (.skip 16)), .whenWriting (.put (.skip 15))], true⟩
    let two : Script := ⟨[.put (.unsigned .two 258)], true⟩
    Ends (short.encode .bigEndian (some 0) s.store)
        (fun encoded _ => encoded.result.map Loan.view = .error (.fault .remainingBytes))
        (fun abort t => ∃ length, (short.measure .bigEndian).length = .ok length ∧
          Store.obtain (some 0) length s.store = .error abort t) ∧
      Ends (short.encodeInArena .bigEndian (.new 0 64, s.store))
        (fun encoded t => encoded.result.map (fun slice => t.1.read slice 0 slice.length) =
          .error (.fault .remainingBytes))
        (fun abort t => ∃ length, (short.measure .bigEndian).length = .ok length ∧
          Arena.get length false (.new 0 64, s.store) = .error abort t) ∧
      (two.encodeInto .bigEndian [9, 9, 9]).2 = [1, 2, 9] := by
  intro before s short two
  have hshort : short.verdict .bigEndian none = .error (.fault .remainingBytes) := by rfl
  have htwo : two.verdict .bigEndian (some 3) = .ok [1, 2] := by rfl
  obtain ⟨-, -, hown, harena⟩ := drivers_reach_verdict.2 before short .bigEndian
  refine ⟨?_, ?_, ?_⟩
  · rw [← hshort]
    refine hown (some 0) ?_
    rintro number ⟨⟩
    show 0 < s.store.pools.length
    decide
  · rw [← hshort]
    exact harena "arena" (.new 0 64) rfl
  · exact (drivers_reach_verdict.2 [] two .bigEndian).2.1 [9, 9, 9] |>.2 [1, 2] htwo

end Session

end Wirepool
