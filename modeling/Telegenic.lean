import Telegenic.Stream.Safety
import Telegenic.Control.Liveness
import Telegenic.Control.Submit
import Telegenic.Stream.Restart
import Telegenic.Stream.Aliasing
import Telegenic.Control.Silence
import Telegenic.Handle.WakeUps
import Telegenic.Stream.Snapshot
import Telegenic.Genicam.Invalidation
import Telegenic.Genicam.FieldUpdates
import Telegenic.Genicam.Conditionals
import Telegenic.Genicam.Sentences
import Telegenic.Genicam.Composition
import Telegenic.Stream.RunnerCourses
import Telegenic.Genicam.XmlLiterals
import Telegenic.Camera.OpenStream
import Telegenic.Control.Flights
import Telegenic.Genicam.AccessModes
import Telegenic.Genicam.FieldLaws
import Telegenic.Emulator.Codec
import Telegenic.Genicam.Archive
import Telegenic.Control.Transfers
