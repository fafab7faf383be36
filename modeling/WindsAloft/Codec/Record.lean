import WindsAloft.Document.Layout
import WindsAloft.Json.Value
import WindsAloft.Record

/-!
# Trace records in documents

A record is an object whose member `type` names its kind; the other members
are those of the kind.  The member `type` may stand anywhere, so the whole
object is read before any of its values is looked at: a flaw anywhere in it
comes before every value that does not fit, and such values are reported
without a place.  A list with the name of the kind in front will do as well.
-/

namespace WindsAloft
namespace Record

/-- How deeply values may be nested inside a record. -/
def depthInside : Nat := 126

/-- The member that names the kind. -/
def tag : String := "type"

def Kind.read : Reader Kind :=
  .name [(Kind.measurement.name, .measurement), (Kind.query.name, .query)]

def measurementOf (time x y altitude : Float) (quality : Int32) : Record :=
  .measurement { wind := ⟨x, y⟩, quality := quality, time := time, altitude := altitude }

def queryOf (time altitude : Float) : Record :=
  .query ⟨time, altitude⟩

def layout : Kind → Layout Record
  | .measurement =>
      { title := "struct variant TraceRecord::Measurement"
        part :=
          measurementOf
            <$> .required "time" .real
            <*> .required "x" .real
            <*> .required "y" .real
            <*> .required "altitude" .real
            <*> .required "quality" .int32 }
  | .query =>
      { title := "struct variant TraceRecord::Query"
        part := queryOf <$> .required "time" .real <*> .required "altitude" .real }

/-- Splits the kind off the members of a record, reading all of them through. -/
def splitTag (kind : Option Kind) : Members → Except Fault (Kind × Members)
  | .closed span =>
      match kind with
      | none => .error ⟨.mismatch (.missing tag), some span⟩
      | some kind => .ok (kind, .closed span)
  | .broken whenRead _ _ => .error whenRead
  | .member key value follow rest =>
      match key.name with
      | .error fault => .error fault
      | .ok name =>
          if name = tag then
            if kind.isSome then
              .error ⟨.mismatch (.duplicate tag), some key.duplicate⟩
            else
              match Kind.read value with
              | .error fault => .error fault
              | .ok kind => splitTag (some kind) rest
          else
            match value.readThrough depthInside with
            | .error fault => .error fault
            | .ok () =>
                (splitTag kind rest).map
                  fun (kind, members) => (kind, .member key value follow members)

def countItems : Items → Nat
  | .closed _ => 0
  | .item _ _ rest => countItems rest + 1
  | .broken _ _ _ => 0

/-- A record from items behind the name of its kind, all of which have to be its values. -/
def ofItems (kind : Kind) (items : Items) : Except Fault Record :=
  match (layout kind).readItems items with
  | .error fault => .error fault
  | .ok (record, left) =>
      if countItems left = 0 then
        .ok record
      else
        .error
          ⟨.mismatch (.length (countItems items)
            (Layout.elements (layout kind).part.fields.length ++ " in sequence")), none⟩

def read : Reader Record
  | .object _ members =>
      match splitTag none members with
      | .error fault => .error fault
      | .ok (kind, members) => ((layout kind).readMembers members).mapError Fault.withoutSpan
  | .list _ (.closed span) => .error ⟨.mismatch (.missing tag), some span⟩
  | .list _ (.broken whenRead _ _) => .error whenRead
  | .list _ (.item _ value rest) =>
      match Kind.read value with
      | .error fault => .error fault
      | .ok kind =>
          match Doc.readThroughItems depthInside rest with
          | .error fault => .error fault
          | .ok () => (ofItems kind rest).mapError Fault.withoutSpan
  | doc => .error (doc.unexpected "internally tagged enum TraceRecord")

def toJson : Record → Json
  | .measurement sample =>
      .object
        [ (tag, .text Kind.measurement.name)
        , ("time", .real sample.time)
        , ("x", .real sample.wind.x)
        , ("y", .real sample.wind.y)
        , ("altitude", .real sample.altitude)
        , ("quality", .integer sample.quality.toInt) ]
  | .query point =>
      .object
        [ (tag, .text Kind.query.name)
        , ("time", .real point.time)
        , ("altitude", .real point.altitude) ]

end Record
end WindsAloft
