import Labyrinth.Engine.Usage
import Labyrinth.Feed.Origin
import Labyrinth.Feed.Server
import Labyrinth.Feed.Stream
import Labyrinth.Grid.Json
import Labyrinth.Main
import Labyrinth.Retry.Run
import Labyrinth.Proofs.Launch.Meeting
import Labyrinth.Proofs.Maze.Carved
import Labyrinth.Scene.Markup
import Labyrinth.Proofs.Coordinator.History
import Labyrinth.Proofs.Coordinator.Standing
import Labyrinth.Proofs.Coordinator.Commands
import Labyrinth.Proofs.Coordinator.Completion
import Labyrinth.Proofs.Timeline.Lockstep
import Labyrinth.Proofs.Timeline.Room
import Labyrinth.Proofs.Timeline.Service
import Labyrinth.Proofs.Launch.Chronicle
import Labyrinth.Proofs.Launch.Arrival
import Labyrinth.Proofs.Coordinator.Leads
import Labyrinth.Proofs.Launch.Testimony
import Labyrinth.Proofs.Launch.Horizon
import Labyrinth.Proofs.Launch.Stranding
import Labyrinth.Proofs.Maze.Rooms
import Labyrinth.Proofs.Mission.Termination
import Labyrinth.Proofs.Coordinator.Patience
import Labyrinth.Proofs.Launch.Roster
import Labyrinth.Proofs.Launch.Gathering
import Labyrinth.Proofs.Launch.Steadfast
import Labyrinth.Proofs.Coordinator.Lifecycle
import Labyrinth.Proofs.Coordinator.Promptness
import Labyrinth.Proofs.Feed.Delivery
import Labyrinth.Proofs.Engine.Arbitration
import Labyrinth.Proofs.Maze.Routes
import Labyrinth.Proofs.Engine.Running
import Labyrinth.Proofs.Engine.Poses
import Labyrinth.Proofs.Engine.Guided
import Labyrinth.Proofs.Engine.Queries
import Labyrinth.Proofs.Engine.Lifetime
import Labyrinth.Proofs.Retry.Deadline
import Labyrinth.Proofs.Launch.Curfew
import Labyrinth.Proofs.Scene.Sealed
import Labyrinth.Proofs.Coordinator.Later
import Labyrinth.Proofs.Timeline.Fleet
import Labyrinth.Proofs.Timeline.Later
import Labyrinth.Proofs.Launch.Siblings
import Labyrinth.Proofs.Plan.Minimal
import Labyrinth.Proofs.Maze.DepthFirst
import Labyrinth.Proofs.Maze.Shape
import Labyrinth.Proofs.Retry.Cancelled
import Labyrinth.Proofs.Retry.Polling
import Labyrinth.Proofs.Coordinator.Attempts
import Labyrinth.Proofs.Feed.Order
import Labyrinth.Proofs.Position.History
import Labyrinth.Proofs.Config.Written
import Labyrinth.Grid.Stored
import Labyrinth.Proofs.Plan.Broken
import Labyrinth.Proofs.Grid.Drawn
import Labyrinth.Proofs.Grid.Stored
import Labyrinth.Proofs.Maze.Pace
import Labyrinth.Proofs.Route.Grown
import Labyrinth.Proofs.Grid.Pairs
import Labyrinth.Proofs.Session.Pool
