import InstaClone.Async.Program
import InstaClone.Async.Frame
import InstaClone.Async.Machine
import InstaClone.Async.World
import InstaClone.Async.Contract
import InstaClone.Async.Tracks
import InstaClone.Async.Trace
import InstaClone.Async.Replies
import InstaClone.Async.Settled
import InstaClone.Async.Guard
import InstaClone.Async.Turns
import InstaClone.Async.Origins
import InstaClone.Async.Chains
import InstaClone.Async.Mending
import InstaClone.Async.Mirror
import InstaClone.Async.Ledger
import InstaClone.Async.Growth
import InstaClone.Async.Visited
import InstaClone.Regex.Match
import InstaClone.Regex.Parse
import InstaClone.Regex.Places
import InstaClone.Firestore
import InstaClone.Storage
import InstaClone.Backend
import InstaClone.Records
import InstaClone.Services
import InstaClone.Frames
import InstaClone.Uploads
import InstaClone.Codec
import InstaClone.Sessions
import InstaClone.Registration
import InstaClone.Rows
import InstaClone.Relations
import InstaClone.Answers
import InstaClone.Atomicity
import InstaClone.Client
import InstaClone.Controllers
import InstaClone.Conduct
import InstaClone.Likes
import InstaClone.Taps
import InstaClone.LikeCount
import InstaClone.Display
import InstaClone.Feed
import InstaClone.Lists
import InstaClone.Sorting
import InstaClone.PostOrder
import InstaClone.Deletion
import InstaClone.Messaging
import InstaClone.Copies
import InstaClone.Entries
import InstaClone.Failures
import InstaClone.Editing
import InstaClone.Pictures
import InstaClone.Owners
import InstaClone.Listeners
import InstaClone.Comments
import InstaClone.Chats
import InstaClone.Conversations
import InstaClone.Labels
import InstaClone.Captions
import InstaClone.Mentions
import InstaClone.Search
import InstaClone.Commits
import InstaClone.Headers
import InstaClone.Inboxes
import InstaClone.Flags
import InstaClone.Completions
import InstaClone.Notices
import InstaClone.Screens
import InstaClone.Identifiers
import InstaClone.Paths
import InstaClone.Readers
import InstaClone.Inventory
import InstaClone.Schema
import InstaClone.Provenance
import InstaClone.Authors
import InstaClone.Profiles
import InstaClone.Shown
import InstaClone.Past
import InstaClone.Permissions
import InstaClone.Causes
import InstaClone.Async.Requests
import InstaClone.Disclosure
