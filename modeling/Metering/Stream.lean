import Metering.Aggregator.Pool
import Metering.Failure
import Metering.OrderedMap

/-!
# Streams

A stream is what one instrument reports: its description, and the window that is being accumulated,
with one aggregator for each label set seen in it.  Aggregators are batched into the window, and a
collection cycle ends by turning the window into a metric or by skipping it.  Under delta
temporality the window then starts over; under cumulative temporality it never ends.

The aggregators themselves are in a pool, so the operations work on a stream together with its
pool, a `PooledStream`.
-/

namespace Metering

/-- The description of one instrument's reports and its current window. -/
structure Stream where
  descriptor : Descriptor
  aggregation : Aggregation
  temporality : Temporality
  resource : Resource
  library : Library
  start : Int
  window : OrderedMap LabelSet AggregatorId

namespace Stream

/-- The stream after its window has ended at a time. -/
def endWindow (s : Stream) (time : Int) : Stream :=
  match s.temporality with
  | .delta => { s with start := time, window := OrderedMap.empty }
  | .cumulative => s

/-- The points of the window at a time, in the order in which label sets entered it. -/
def points (s : Stream) (p : Pool) (time : Int) : List Point :=
  s.window.entries.filterMap fun e => (p.get e.2).point? s.start time e.1

/-- The metrics of the window at a time: one, or none if there are no points. -/
def metrics (s : Stream) (p : Pool) (time : Int) : List Metric :=
  match s.points p time with
  | [] => []
  | points =>
    [{ resource := s.resource
       library := s.library
       name := s.descriptor.name
       description := s.descriptor.description
       unit := s.aggregation.unit s.descriptor
       type := s.aggregation.metricType s.descriptor
       temporality := s.temporality
       points := points }]

/-- A new aggregator for the stream. -/
def freshAggregator (s : Stream) : Aggregator :=
  s.aggregation.fresh s.descriptor

end Stream

/-- A stream with the pool that holds its aggregators. -/
structure PooledStream where
  pool : Pool
  stream : Stream

namespace PooledStream

/-- The identifier and the state of a new aggregator of the stream. -/
def create (w : PooledStream) : AggregatorId × PooledStream :=
  (w.pool.next, { w with pool := w.pool.add w.stream.freshAggregator })

/-- The window with an aggregator entered for a label set. -/
def enter (w : PooledStream) (labels : LabelSet) (i : AggregatorId) : PooledStream :=
  { w with stream := { w.stream with window := w.stream.window.insert labels i } }

/-- What an aggregator holds moved into another. -/
def move (w : PooledStream) (source target : AggregatorId) : Except Failure Unit × PooledStream :=
  match w.pool.move source target with
  | .ok p => (.ok (), { w with pool := p })
  | .error e => (.error (.merge e), w)

/-- Moves the state of an aggregator into the window.  One that no longer receives measurements is
adopted as it is, if the window has nothing for its label set yet. -/
def batch (w : PooledStream) (labels : LabelSet) (i : AggregatorId) (unmapped : Bool) :
    Except Failure Unit × PooledStream :=
  match w.stream.window.get? labels with
  | some current => w.move i current
  | none =>
    if unmapped then (.ok (), w.enter labels i)
    else
      let (current, w) := w.create
      (w.enter labels current).move i current

/-- Ends a cycle that reports nothing. -/
def skip (w : PooledStream) (time : Int) : PooledStream :=
  { w with stream := w.stream.endWindow time }

/-- Ends a cycle with the metrics of the window. -/
def complete (w : PooledStream) (time : Int) : List Metric × PooledStream :=
  (w.stream.metrics w.pool time, w.skip time)

/-- Enters observed values, each recorded in an aggregator of its own; a value that cannot be
recorded ends the work where it stands. -/
def gather (w : PooledStream) : List (LabelSet × Number) → Except Failure Unit × PooledStream
  | [] => (.ok (), w)
  | (labels, value) :: rest =>
    let (i, w) := w.create
    match w.pool.record i (.number value) with
    | .error e => (.error (.record e), w)
    | .ok p =>
      match ({ w with pool := p } : PooledStream).batch labels i true with
      | (.ok (), w) => w.gather rest
      | (.error e, w) => (.error e, w)

/-- Ends a cycle of an observer: with what its callback observed, or without a report if the callback
is missing or failed. -/
def close (w : PooledStream) (observed : Option (List (LabelSet × Number))) (time : Int) :
    Except Failure (List Metric) × PooledStream :=
  match observed with
  | none => (.ok [], w.skip time)
  | some values =>
    match w.gather values with
    | (.error e, w) => (.error e, w)
    | (.ok (), w) =>
      let (metrics, w) := w.complete time
      (.ok metrics, w)

end PooledStream

end Metering
